import FluxMQ.Library.Levels
import FluxMQ.Library.Trie
import FluxMQ.Types.QueueConfig

/-!
# Matching topics against filters

Three matchers of the source: `TopicMatch` in `topics/match.go`, and the two functions
`topicMatchesFilter` with their `matchLevels` in `cluster/util.go` and `storage/badger/subscription.go`.
A topic is a `String`, hence valid UTF-8; the check of the rest is `ValidateTopicName` in
`topics/validate.go`.

* `matchLevels_iff_covers`: on the levels of a valid filter, `matchLevels` is the relation of a path
  with wildcards to the levels it covers.
* `topicMatch_eq`: `TopicMatch` is `matchLevels`, unless the topic begins with `$` and the filter with
  a wildcard.
-/

namespace FluxMQ.Topics

open Levels

/-- What stands between two slashes. -/
abbrev Level := List Char

/-- The levels of a topic or of a filter. -/
def levels (s : String) : List Level :=
  s.toList.splitOn '/'

/-- `ValidateTopicName` accepts the topic. -/
def validTopicName (topic : String) : Bool :=
  topic ≠ "" && !topic.toList.contains '+' && !topic.toList.contains '#' &&
    !topic.toList.contains (Char.ofNat 0)

def isShared (filter : String) : Bool :=
  "$share/".toList.isPrefixOf filter.toList

/-! ### The matchers -/

/-- The loop of `TopicMatch`. -/
def topicMatchLoop (filter remainingTopic : List Char) (topicExhausted : Bool) : Bool :=
  if (cut '/' filter).1 = ['#'] then true
  else if topicExhausted then false
  else if (cut '/' filter).1 ≠ ['+'] ∧ (cut '/' filter).1 ≠ (cut '/' remainingTopic).1 then false
  else
    match _h : (cut '/' filter).2 with
    | none => (cut '/' remainingTopic).2.isNone
    | some filterRest =>
      match (cut '/' remainingTopic).2 with
      | some topicRest => topicMatchLoop filterRest topicRest false
      | none => topicMatchLoop filterRest remainingTopic true
  termination_by filter.length
  decreasing_by all_goals exact length_of_cut _h

/-- The same loop for any separator. -/
def matchLoop (sep : Char) (filter remaining : List Char) (exhausted : Bool) : Bool :=
  if (cut sep filter).1 = ['#'] then true
  else if exhausted then false
  else if (cut sep filter).1 ≠ ['+'] ∧ (cut sep filter).1 ≠ (cut sep remaining).1 then false
  else
    match _h : (cut sep filter).2 with
    | none => (cut sep remaining).2.isNone
    | some filterRest =>
      match (cut sep remaining).2 with
      | some rest => matchLoop sep filterRest rest false
      | none => matchLoop sep filterRest remaining true
  termination_by filter.length
  decreasing_by all_goals exact length_of_cut _h

def topicMatch (filter topic : String) : Bool :=
  if filter = "" ∨ topic = "" then false
  else if filter = topic then true
  -- A topic that begins with `$` is kept from the wildcards.
  else if topic.toList.head? = some '$' ∧
      (filter.toList.head? ≠ some '$' ∨ (cut '/' filter.toList).1 ∈ [['+'], ['#']]) then false
  else topicMatchLoop filter.toList topic.toList false

/-- `matchLevels`, on what is left of the levels of the topic and of the filter. -/
def matchLevels : (topic filter : List Level) → Bool
  | topic, [] => topic.isEmpty
  | topic, level :: filter =>
    if level = ['#'] then true
    else
      match topic with
      | [] => false
      | topicLevel :: topic =>
        if level = ['+'] ∨ level = topicLevel then matchLevels topic filter else false

end FluxMQ.Topics

namespace FluxMQ

open Topics

/-- `topicMatchesFilter` of the cluster. -/
def Cluster.topicMatchesFilter (topic filter : String) : Bool :=
  Topics.matchLevels (levels topic) (levels filter)

/-- `topicMatchesFilter` of the badger stores, which the retained messages and the subscriptions are
matched by. -/
def Badger.topicMatchesFilter (topic filter : String) : Bool :=
  Topics.matchLevels (levels topic) (levels filter)

end FluxMQ

namespace FluxMQ.Topics

open Levels

variable {filter topic : String}

/-! ### Levels -/

lemma levels_injective : Function.Injective levels :=
  splitOn_injective.comp fun _ _ => String.toList_injective

/-- The levels of a topic are not wildcards. -/
lemma not_mem_levels (h : validTopicName topic = true) : ['+'] ∉ levels topic ∧ ['#'] ∉ levels topic := by
  simp only [validTopicName, Bool.and_eq_true, Bool.not_eq_true'] at h
  obtain ⟨⟨⟨-, hplus⟩, hhash⟩, -⟩ := h
  constructor
  · intro hmem
    have := mem_of_mem_splitOn hmem (List.mem_singleton.2 rfl)
    simp [this] at hplus
  · intro hmem
    have := mem_of_mem_splitOn hmem (List.mem_singleton.2 rfl)
    simp [this] at hhash

attribute [simp] matchLevels

@[simp]
lemma matchLevels_multi {topic filter : List Level} : matchLevels topic (['#'] :: filter) = true := by
  cases topic <;> simp

/-- The loop goes through the levels as `matchLevels` does. -/
lemma matchLoop_eq {sep : Char} {filter remaining : List Char} {exhausted : Bool} :
    matchLoop sep filter remaining exhausted =
      matchLevels (if exhausted then [] else remaining.splitOn sep) (filter.splitOn sep) := by
  fun_induction matchLoop sep filter remaining exhausted with
  | case1 filter remaining exhausted hmulti =>
    cases hrest : (cut sep filter).2 with
    | none => simp [splitOn_of_none hrest, hmulti]
    | some filterRest => simp [splitOn_of_some hrest, hmulti]
  | case2 filter remaining hmulti =>
    cases hrest : (cut sep filter).2 with
    | none => simp [splitOn_of_none hrest, hmulti]
    | some filterRest => simp [splitOn_of_some hrest, hmulti]
  | case3 filter remaining exhausted hmulti hopen hlevel =>
    -- The levels differ, and the rest of both is not looked at.
    cases hrest : (cut sep filter).2 <;> cases htext : (cut sep remaining).2 <;>
      simp [splitOn_of_none, splitOn_of_some, hrest, htext, hmulti, hopen, hlevel]
  | case4 filter remaining exhausted hmulti hopen hlevel hrest =>
    -- The filter has been read, and matches if the text has.
    rw [not_and_or, not_not, not_not] at hlevel
    cases htext : (cut sep remaining).2 with
    | none => simp [splitOn_of_none hrest, splitOn_of_none htext, hmulti, hopen, hlevel]
    | some rest =>
      have hne : rest.splitOn sep ≠ [] := List.splitOn_ne_nil _ _
      simp [splitOn_of_none hrest, splitOn_of_some htext, hmulti, hopen, hlevel, hne]
  | case5 filter remaining exhausted hmulti hopen hlevel filterRest hrest rest htext ih =>
    rw [not_and_or, not_not, not_not] at hlevel
    simp [splitOn_of_some hrest, splitOn_of_some htext, hmulti, hopen, hlevel, ih]
  | case6 filter remaining exhausted hmulti hopen hlevel filterRest hrest htext ih =>
    rw [not_and_or, not_not, not_not] at hlevel
    simp [splitOn_of_some hrest, splitOn_of_none htext, hmulti, hopen, hlevel, ih]

lemma topicMatchLoop_eq {filter remaining : List Char} {exhausted : Bool} :
    topicMatchLoop filter remaining exhausted = matchLoop '/' filter remaining exhausted := by
  induction hn : filter.length using Nat.strong_induction_on
    generalizing filter remaining exhausted with
  | _ n ih =>
    rw [topicMatchLoop, matchLoop]
    cases hrest : (cut '/' filter).2 with
    | none => rfl
    | some filterRest => simp only [ih _ (hn ▸ length_of_cut hrest) rfl]

lemma matchLevels_self {topic : List Level} : matchLevels topic topic = true := by
  induction topic with
  | nil => rfl
  | cons level topic ih => simp [ih]

/-! ### One relation -/

/-- The topic is one of those that wildcards are kept from. -/
def isDollar (topic : String) : Bool :=
  topic.toList.head? = some '$'

/-- The first level of the filter is a wildcard. -/
def beginsWithWildcard (filter : String) : Bool :=
  (cut '/' filter.toList).1 ∈ [['+'], ['#']]

lemma levels_eq_cons (s : String) : ∃ rest, levels s = (cut '/' s.toList).1 :: rest := by
  cases hrest : (cut '/' s.toList).2 with
  | none => exact ⟨[], splitOn_of_none hrest⟩
  | some rest => exact ⟨rest.splitOn '/', splitOn_of_some hrest⟩

/-- A text begins with `$` when its first level does. -/
lemma head_cut_iff {s : List Char} : (cut '/' s).1.head? = some '$' ↔ s.head? = some '$' := by
  obtain ⟨hcut, -⟩ | ⟨before, after, hcut, hs, -⟩ := cut_spec '/' s
  · rw [hcut]
  · rw [hcut, hs]
    cases before <;> simp

/-- A text that begins with `$` does not begin with a wildcard. -/
lemma not_wildcard_of_head {s : List Char} (h : s.head? = some '$') :
    (cut '/' s).1 ∉ [['+'], ['#']] := by
  intro hmem
  rw [← head_cut_iff] at h
  simp only [List.mem_cons, List.not_mem_nil, or_false] at hmem
  rcases hmem with hlevel | hlevel <;> simp [hlevel] at h

/-- `TopicMatch` is `matchLevels`, except that it keeps the wildcards at the beginning of a filter from
the topics that begin with `$`. -/
theorem topicMatch_eq (hfilter : filter ≠ "") (htopic : topic ≠ "") : topicMatch filter topic =
    (matchLevels (levels topic) (levels filter) && !(isDollar topic && beginsWithWildcard filter)) := by
  have hloop : topicMatchLoop filter.toList topic.toList false =
      matchLevels (levels topic) (levels filter) := topicMatchLoop_eq.trans matchLoop_eq
  rw [topicMatch, if_neg (by simp [hfilter, htopic]), hloop]
  by_cases hdollar : topic.toList.head? = some '$'
  · by_cases heq : filter = topic
    · subst heq
      simp [isDollar, beginsWithWildcard, hdollar, matchLevels_self, -List.mem_cons,
        not_wildcard_of_head hdollar]
    rw [if_neg heq]
    by_cases hhead : filter.toList.head? = some '$'
    · simp [hdollar, hhead, isDollar, beginsWithWildcard, -List.mem_cons, not_wildcard_of_head hhead]
    by_cases hwild : (cut '/' filter.toList).1 ∈ [['+'], ['#']]
    · simp [hdollar, hwild, isDollar, beginsWithWildcard, -List.mem_cons]
    -- The first levels differ, as only that of the topic begins with a dollar.
    have hne : (cut '/' filter.toList).1 ≠ (cut '/' topic.toList).1 := by
      intro h
      exact hhead (head_cut_iff.1 (h ▸ head_cut_iff.2 hdollar))
    obtain ⟨filterRest, hfl⟩ := levels_eq_cons filter
    obtain ⟨topicRest, htl⟩ := levels_eq_cons topic
    simp only [List.mem_cons, List.not_mem_nil, or_false, not_or] at hwild
    simp [hdollar, hhead, hfl, htl, hwild, hne]
  · have hplain : isDollar topic = false := by simpa [isDollar] using hdollar
    by_cases heq : filter = topic
    · simp [heq, hplain, matchLevels_self]
    · simp [heq, hplain, hdollar]

/-- The first levels of a topic and of a filter that matches it agree, or the filter begins with a
wildcard. -/
lemma first_of_matchLevels (h : matchLevels (levels topic) (levels filter) = true) :
    beginsWithWildcard filter = true ∨ (cut '/' filter.toList).1 = (cut '/' topic.toList).1 := by
  obtain ⟨filterRest, hfl⟩ := levels_eq_cons filter
  obtain ⟨topicRest, htl⟩ := levels_eq_cons topic
  simp only [hfl, htl, matchLevels] at h
  split at h
  · rename_i hmulti
    exact .inl (by simp [beginsWithWildcard, hmulti])
  split at h
  · rename_i hlevel
    exact hlevel.imp_left fun hsingle => by simp [beginsWithWildcard, hsingle]
  · cases h

/-- A filter matches only topics of its own kind: those that begin with `$`, or the others. -/
lemma topicMatch_iff (hfilter : filter ≠ "") (htopic : topic ≠ "") :
    topicMatch filter topic = true ↔
      isDollar filter = isDollar topic ∧ matchLevels (levels topic) (levels filter) = true := by
  rw [topicMatch_eq hfilter htopic, Bool.and_eq_true, and_comm, and_congr_left_iff]
  intro hmatch
  by_cases hwild : beginsWithWildcard filter = true
  · -- A filter that begins with a wildcard does not begin with a dollar.
    have hfilter : isDollar filter = false := by
      by_contra h
      exact not_wildcard_of_head (by simpa [isDollar] using h) (of_decide_eq_true hwild)
    rw [hwild, hfilter, Bool.and_true, Bool.not_eq_true', eq_comm]
  have hfirst := (first_of_matchLevels hmatch).resolve_left hwild
  have hsame : isDollar filter = isDollar topic := by
    unfold isDollar
    rw [decide_eq_decide, ← head_cut_iff (s := filter.toList), ← head_cut_iff (s := topic.toList),
      hfirst]
  simp [hwild, hsame]

/-- On the levels of a filter whose wildcards stand where they may, `matchLevels` is the relation of a
path to the levels it covers. -/
theorem matchLevels_iff_covers {topic filter : List Level} (h : validLevels filter = true) :
    matchLevels topic filter = true ↔ Trie.Covers ['+'] ['#'] filter topic := by
  induction filter generalizing topic with
  | nil => simp [Trie.Covers]
  | cons level filter ih =>
    by_cases hmulti : level = ['#']
    · -- The wildcard stands in the last level.
      have hlast : filter = [] := by
        cases filter with
        | nil => rfl
        | cons next filter => simp [validLevels, validLevel, hmulti] at h
      cases topic <;> simp [hmulti, hlast, Trie.Covers]
    have hrest : validLevels filter = true := by
      cases filter with
      | nil => rfl
      | cons next filter => exact (Bool.and_eq_true_iff.1 h).2
    cases topic with
    | nil => simp [Trie.Covers, hmulti]
    | cons topicLevel topic =>
      simp only [matchLevels, Trie.Covers, hmulti, if_false, false_and, false_or,
        or_comm (a := level = ['+'])]
      split <;> simp [*]

/-- `ParseShared` cuts off the share name. -/
lemma parseShared_spec {rest shareName topicFilter : List Char}
    (h : parseShared rest = some (shareName, topicFilter)) :
    rest = shareName ++ '/' :: topicFilter ∧ '/' ∉ shareName := by
  have hcut : cut '/' rest = (shareName, some topicFilter) := by
    unfold parseShared at h
    unfold cut
    split at h
    · cases h
    · rename_i name sep filter hspan
      obtain ⟨rfl, rfl⟩ : name = shareName ∧ filter = topicFilter := by simpa using h
      rw [hspan]
  obtain ⟨hnone, -⟩ | ⟨before, after, hsome, hrest, hsep⟩ := cut_spec '/' rest
  · simp [hnone] at hcut
  · obtain ⟨rfl, rfl⟩ : before = shareName ∧ after = topicFilter := by simpa [hsome] using hcut
    exact ⟨hrest, hsep⟩

lemma splitOn_share {shareName topicFilter : List Char} (h : '/' ∉ shareName) :
    ("$share/".toList ++ (shareName ++ '/' :: topicFilter)).splitOn '/' =
      "$share".toList :: shareName :: topicFilter.splitOn '/' := by
  have hshare : "$share/".toList ++ (shareName ++ '/' :: topicFilter) =
      "$share".toList ++ '/' :: (shareName ++ '/' :: topicFilter) := rfl
  rw [hshare, List.splitOn_append_cons_self_of_not_mem (by decide),
    List.splitOn_append_cons_self_of_not_mem h]

/-- The levels of a valid filter are valid, also those that name a share group. -/
lemma validLevels_of_valid (h : validTopicFilter filter = true) :
    validLevels (levels filter) = true := by
  unfold validTopicFilter at h
  simp only at h
  split at h
  · cases h
  split at h
  · rename_i hstart
    obtain ⟨rest, hrest⟩ := List.isPrefixOf_iff_prefix.1 hstart
    rw [← hrest, List.drop_left] at h
    split at h
    · cases h
    rename_i shareName topicFilter hparse
    obtain ⟨rfl, hsep⟩ := parseShared_spec hparse
    rw [levels, ← hrest, splitOn_share hsep]
    simp only [Bool.and_eq_true, Bool.not_eq_true'] at h
    obtain ⟨⟨⟨⟨-, hplus⟩, hhash⟩, -⟩, hlevels⟩ := h
    -- Neither the keyword nor the share name contains a wildcard.
    have hne : topicFilter.splitOn '/' ≠ [] := List.splitOn_ne_nil _ _
    have hname : validLevel false shareName = true := by
      rw [validLevel, hplus, hhash]
      rfl
    cases hsplit : topicFilter.splitOn '/' with
    | nil => exact absurd hsplit hne
    | cons level rest =>
      rw [hsplit] at hlevels
      simp only [validLevels, hname, hlevels, Bool.and_true]
      decide
  · exact h

lemma ne_of_valid (h : validTopicFilter filter = true) : filter ≠ "" := by
  rintro rfl
  simp [validTopicFilter] at h

lemma topic_ne_of_valid (h : validTopicName topic = true) : topic ≠ "" := by
  rintro rfl
  simp [validTopicName] at h

end FluxMQ.Topics
