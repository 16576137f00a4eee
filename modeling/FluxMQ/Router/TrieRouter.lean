import FluxMQ.Library.Runs
import FluxMQ.Topics.Match

/-!
# The subscription router

`TrieRouter` in `broker/router/router.go`. The router carries what its operations maintain: that a
subscription stands at the levels of its filter, and that no client has two at the same place.

* `TrieRouter.subscribe`, `TrieRouter.unsubscribe`, `TrieRouter.matchInto`.
* `TrieRouter.find`: the subscription of a client to a filter, if it has one. To its users the router is
  this map: `find_subscribe`, `find_unsubscribe`.
* `TrieRouter.filter_matchInto`: matching finds a subscription once if its filter covers the topic.
* `matchers_agree`: the matchers of the source and the router are one relation, as long as no wildcard
  meets a topic that begins with `$`.

The pools that the slices are taken from and the locks are left out, and so is the subscription
identifier, which the router never sets.
-/

namespace FluxMQ.Router

open Topics List

/-- `SubscribeOptions` of MQTT 5. -/
structure SubscribeOptions where
  noLocal : Bool := false
  retainAsPublished : Bool := false
  retainHandling : Nat := 0
  consumerGroup : String := ""
  shareName : String := ""
  deriving Repr, DecidableEq

/-- A subscription as the router returns it. -/
structure Subscription where
  clientID : String
  filter : String
  qos : Nat
  options : SubscribeOptions := {}
  deriving Repr, DecidableEq

/-- A subscription takes the place of the one that the client has, or stands last. -/
def put (sub : Subscription) : List Subscription → List Subscription
  | [] => [sub]
  | existing :: subs =>
    if existing.clientID = sub.clientID then sub :: subs else existing :: put sub subs

/-- The subscriptions of the other clients. -/
def drop (clientID : String) (subs : List Subscription) : List Subscription :=
  subs.filter fun sub => sub.clientID ≠ clientID

/-! ### The subscriptions at one node -/

section

variable {sub s : Subscription} {subs : List Subscription} {clientID : String}

lemma mem_put (h : s ∈ put sub subs) : s = sub ∨ s ∈ subs := by
  induction subs with
  | nil => exact .inl (mem_singleton.1 h)
  | cons existing subs ih =>
    simp only [put] at h
    split at h
    · rcases mem_cons.1 h with rfl | h
      · exact .inl rfl
      · exact .inr (mem_cons_of_mem _ h)
    · rcases mem_cons.1 h with rfl | h
      · exact .inr mem_cons_self
      · exact (ih h).imp_right (mem_cons_of_mem _)

lemma nodup_put (h : (subs.map Subscription.clientID).Nodup) :
    ((put sub subs).map Subscription.clientID).Nodup := by
  induction subs with
  | nil => simp [put]
  | cons existing subs ih =>
    rw [map_cons, nodup_cons] at h
    simp only [put]
    split
    · rename_i heq
      rw [map_cons, nodup_cons, ← heq]
      exact h
    rename_i hne
    rw [map_cons, nodup_cons]
    refine ⟨fun hmem => ?_, ih h.2⟩
    obtain ⟨s, hs, heq⟩ := mem_map.1 hmem
    rcases mem_put hs with rfl | hs
    · exact hne heq.symm
    · exact h.1 (mem_map.2 ⟨s, hs, heq⟩)

lemma find_put : ((put sub subs).find? fun s => s.clientID = clientID) =
    if sub.clientID = clientID then some sub else subs.find? fun s => s.clientID = clientID := by
  induction subs with
  | nil => by_cases h : sub.clientID = clientID <;> simp [put, h]
  | cons existing subs ih =>
    simp only [put]
    split
    · rename_i heq
      by_cases h : sub.clientID = clientID
      · simp [h]
      · simp [h, heq]
    rename_i hne
    by_cases h : existing.clientID = clientID
    · have : sub.clientID ≠ clientID := fun heq => hne (h.trans heq.symm)
      simp [h, this]
    · simpa [h] using ih

lemma find_drop {other : String} : ((drop other subs).find? fun s => s.clientID = clientID) =
    if other = clientID then none else subs.find? fun s => s.clientID = clientID := by
  rw [drop, find?_filter]
  split
  · rename_i h
    subst h
    simp
  rename_i h
  congr 1
  funext s
  by_cases hs : s.clientID = clientID
  · simp [hs, Ne.symm h]
  · simp [hs]

/-- A client has at most one subscription at a node, which a search finds. -/
lemma filter_clientID (h : (subs.map Subscription.clientID).Nodup) :
    (subs.filter fun s => s.clientID = clientID) =
      (subs.find? fun s => s.clientID = clientID).toList := by
  induction subs with
  | nil => rfl
  | cons existing subs ih =>
    rw [map_cons, nodup_cons] at h
    by_cases heq : existing.clientID = clientID
    · have hrest : (subs.filter fun s => s.clientID = clientID) = [] := by
        rw [filter_eq_nil_iff]
        intro s hs hclient
        exact h.1 (mem_map.2 ⟨s, hs, (of_decide_eq_true hclient).trans heq.symm⟩)
      simp [heq, hrest]
    · simpa [heq] using ih h.2

end

/-! ### The router -/

/-- `TrieRouter`: the subscriptions, at the node of their filter. -/
structure TrieRouter where
  root : Trie Level Subscription
  /-- A subscription stands at the levels of its filter. -/
  placed : ∀ path, ∀ sub ∈ root.valuesAt path, levels sub.filter = path
  /-- The subscriptions at a node are of different clients. -/
  distinct : ∀ path, ((root.valuesAt path).map Subscription.clientID).Nodup

namespace TrieRouter

def newRouter : TrieRouter where
  root := .empty
  placed := by simp
  distinct := by simp

def subscribe (r : TrieRouter) (clientID filter : String) (qos : Nat) (opts : SubscribeOptions) :
    TrieRouter where
  root := r.root.update (put { clientID, filter, qos, options := opts }) (levels filter)
  placed := by
    intro path sub hsub
    rw [Trie.valuesAt_update] at hsub
    split at hsub
    · rename_i hpath
      rcases mem_put hsub with rfl | hsub
      · exact hpath.symm
      · exact (r.placed _ _ hsub).trans hpath.symm
    · exact r.placed _ _ hsub
  distinct := by
    intro path
    rw [Trie.valuesAt_update]
    split
    · exact nodup_put (r.distinct _)
    · exact r.distinct _

def unsubscribe (r : TrieRouter) (clientID filter : String) : TrieRouter where
  root := r.root.modify (drop clientID) (levels filter)
  placed := by
    intro path sub hsub
    rw [Trie.valuesAt_modify rfl] at hsub
    split at hsub
    · rename_i hpath
      exact (r.placed _ _ (List.mem_of_mem_filter hsub)).trans hpath.symm
    · exact r.placed _ _ hsub
  distinct := by
    intro path
    rw [Trie.valuesAt_modify rfl]
    split
    · exact (r.distinct _).sublist (List.Sublist.map _ List.filter_sublist)
    · exact r.distinct _

/-- `MatchInto`; `Match` is the same with nothing matched before. -/
def matchInto (r : TrieRouter) (topic : String) (matched : List Subscription) : List Subscription :=
  matched ++ r.root.collect ['+'] ['#'] (levels topic)

/-- The subscription of a client to a filter. -/
def find (r : TrieRouter) (clientID filter : String) : Option Subscription :=
  (r.root.valuesAt (levels filter)).find? fun s => s.clientID = clientID

/-- A call of the router. -/
inductive Action where
  | subscribe (clientID filter : String) (qos : Nat) (opts : SubscribeOptions)
  | unsubscribe (clientID filter : String)

/-- The client and the filter that a call is about. -/
def Action.key : Action → String × String
  | .subscribe clientID filter _ _ => (clientID, filter)
  | .unsubscribe clientID filter => (clientID, filter)

def step (r : TrieRouter) : Action → TrieRouter
  | .subscribe clientID filter qos opts => r.subscribe clientID filter qos opts
  | .unsubscribe clientID filter => r.unsubscribe clientID filter

/-- The router that calls lead to. -/
def run (r : TrieRouter) (actions : List Action) : TrieRouter :=
  Transition.run step r actions

/-! ### The router as a map -/

section

variable {r : TrieRouter} {clientID filter client' filter' : String} {qos : Nat}
  {opts : SubscribeOptions} {topic : String}

@[simp]
lemma find_newRouter : newRouter.find clientID filter = none := by simp [find, newRouter]

theorem find_subscribe : (r.subscribe clientID filter qos opts).find client' filter' =
    if clientID = client' ∧ filter = filter' then some { clientID, filter, qos, options := opts }
      else r.find client' filter' := by
  rw [find, subscribe, Trie.valuesAt_update]
  by_cases hfilter : filter = filter'
  · subst hfilter
    rw [if_pos rfl, find_put]
    simp [find]
  · have hlevels : levels filter' ≠ levels filter := fun h => hfilter (levels_injective h).symm
    rw [if_neg hlevels]
    simp [find, hfilter]

theorem find_unsubscribe : (r.unsubscribe clientID filter).find client' filter' =
    if clientID = client' ∧ filter = filter' then none else r.find client' filter' := by
  rw [find, unsubscribe, Trie.valuesAt_modify rfl]
  by_cases hfilter : filter = filter'
  · subst hfilter
    rw [if_pos rfl, find_drop]
    simp [find]
  · have hlevels : levels filter' ≠ levels filter := fun h => hfilter (levels_injective h).symm
    rw [if_neg hlevels]
    simp [find, hfilter]

/-- A step that is about another client or another filter leaves a subscription alone. -/
lemma find_step {a : Action} (h : a.key ≠ (clientID, filter)) :
    (r.step a).find clientID filter = r.find clientID filter := by
  cases a with
  | subscribe client' filter' qos opts =>
    rw [step, find_subscribe, if_neg]
    rintro ⟨rfl, rfl⟩
    exact h rfl
  | unsubscribe client' filter' =>
    rw [step, find_unsubscribe, if_neg]
    rintro ⟨rfl, rfl⟩
    exact h rfl

lemma find_run {actions : List Action} (h : ∀ a ∈ actions, a.key ≠ (clientID, filter)) :
    (r.run actions).find clientID filter = r.find clientID filter := by
  exact Transition.invariant_run (P := fun _ a => a.key ≠ (clientID, filter))
    (I := fun r' : TrieRouter => r'.find clientID filter = r.find clientID filter)
    (fun r' a hr' ha => (find_step ha).trans hr') rfl
    (Transition.along_of_forall fun a ha _ => h a ha)

/-! ### Matching -/

/-- The subscriptions of one client to one filter, at any place of the trie. -/
lemma filter_valuesAt (path : List Level) :
    ((r.root.valuesAt path).filter fun s => s.clientID = clientID ∧ s.filter = filter) =
      if path = levels filter then (r.find clientID filter).toList else [] := by
  split
  · rename_i hpath
    subst hpath
    rw [find, ← filter_clientID (r.distinct _)]
    refine filter_congr fun s hs => ?_
    simp [levels_injective (r.placed _ _ hs)]
  · rename_i hpath
    rw [filter_eq_nil_iff]
    intro s hs hkey
    exact hpath (by rw [← r.placed _ _ hs, (of_decide_eq_true hkey).2])

/-- Matching finds the subscription of a client to a filter once if the filter covers the topic, and
else not at all. -/
theorem filter_matchInto (hvalid : validLevels (levels filter) = true)
    (htopic : validTopicName topic = true) :
    ((r.matchInto topic []).filter fun s => s.clientID = clientID ∧ s.filter = filter) =
      if Topics.matchLevels (levels topic) (levels filter) then (r.find clientID filter).toList else [] := by
  obtain ⟨hsingle, hmulti⟩ := not_mem_levels htopic
  have honly (other : List Level) (hother : other ≠ levels filter) :
      ((r.root.valuesAt other).filter fun s => s.clientID = clientID ∧ s.filter = filter) = [] := by
    rw [filter_valuesAt, if_neg hother]
  rw [matchInto, nil_append]
  split
  · rename_i hmatch
    rw [Trie.filter_collect (by simp) hsingle hmulti ((matchLevels_iff_covers hvalid).1 hmatch) honly,
      filter_valuesAt, if_pos rfl]
  · rename_i hmatch
    exact Trie.filter_collect_of_not_covers (fun h => hmatch ((matchLevels_iff_covers hvalid).2 h)) honly

/-- What matching finds is what is stored under a filter that covers the topic. -/
lemma mem_matchInto {sub : Subscription} :
    sub ∈ r.matchInto topic [] ↔
      r.find sub.clientID sub.filter = some sub ∧
        Trie.Covers ['+'] ['#'] (levels sub.filter) (levels topic) := by
  rw [matchInto, nil_append, Trie.mem_collect]
  constructor
  · rintro ⟨path, hcovers, hsub⟩
    obtain rfl := r.placed _ _ hsub
    have hfind : sub ∈ (r.find sub.clientID sub.filter).toList := by
      rw [find, ← filter_clientID (r.distinct _)]
      exact mem_filter.2 ⟨hsub, by simp⟩
    exact ⟨Option.mem_toList.1 hfind, hcovers⟩
  · rintro ⟨hfind, hcovers⟩
    exact ⟨_, hcovers, mem_of_find?_eq_some hfind⟩

end

end TrieRouter

/-! ### One relation -/

/-- The four matchers agree on a subscription, whatever else was subscribed and unsubscribed, unless its
filter begins with a wildcard and covers a topic that begins with `$`; then they do not. -/
theorem matchers_agree_iff (clientID filter topic : String) (qos : Nat) (opts : SubscribeOptions)
    (before later : List TrieRouter.Action)
    (hfilter : validTopicFilter filter = true) (htopic : validTopicName topic = true)
    (hlater : ∀ a ∈ later, a.key ≠ (clientID, filter)) :
    (Cluster.topicMatchesFilter topic filter = Topics.topicMatch filter topic ∧
      Badger.topicMatchesFilter topic filter = Topics.topicMatch filter topic ∧
      ((((TrieRouter.newRouter.run before).subscribe clientID filter qos opts).run later).matchInto
          topic []).filter (fun s => s.clientID = clientID ∧ s.filter = filter) =
        if Topics.topicMatch filter topic then [{ clientID, filter, qos, options := opts }] else []) ↔
      ¬ (isDollar topic = true ∧ beginsWithWildcard filter = true ∧
        Trie.Covers ['+'] ['#'] (levels filter) (levels topic)) := by
  have hlevels := validLevels_of_valid hfilter
  have hmatch := topicMatch_eq (ne_of_valid hfilter) (topic_ne_of_valid htopic)
  rw [TrieRouter.filter_matchInto hlevels htopic, TrieRouter.find_run hlater,
    TrieRouter.find_subscribe, ← matchLevels_iff_covers hlevels]
  constructor
  · rintro ⟨hcluster, -, -⟩ ⟨hdollar, hwild, hcovers⟩
    have hcluster : Topics.matchLevels (levels topic) (levels filter) = Topics.topicMatch filter topic := hcluster
    rw [hmatch, hdollar, hwild, hcovers] at hcluster
    exact Bool.noConfusion hcluster
  · intro h
    have hsame : Topics.topicMatch filter topic = Topics.matchLevels (levels topic) (levels filter) := by
      rw [hmatch]
      cases hcovers : Topics.matchLevels (levels topic) (levels filter) with
      | false => rfl
      | true =>
        rw [Bool.true_and, Bool.not_eq_true', Bool.and_eq_false_iff, ← Bool.not_eq_true,
          ← Bool.not_eq_true, ← not_and_or]
        exact fun hboth => h ⟨hboth.1, hboth.2, hcovers⟩
    refine ⟨hsame.symm, hsame.symm, ?_⟩
    rw [hsame]
    simp

/-- The subscription to a filter with both wildcards, between others that cover the topic as well. -/
theorem matchers_agree_iff_parent :
    let before := [.subscribe "c" "#" 0 {}, .subscribe "d" "a/+/#" 2 {}]
    let later := [.unsubscribe "d" "a/+/#", .subscribe "c" "a/b" 1 {}]
    ((((TrieRouter.newRouter.run before).subscribe "c" "a/+/#" 1 {}).run later).matchInto
        "a/b" []).filter (fun s => s.clientID = "c" ∧ s.filter = "a/+/#") =
      [{ clientID := "c", filter := "a/+/#", qos := 1 }] := by
  intro before later
  have h := ((matchers_agree_iff "c" "a/+/#" "a/b" 1 {} before later (by decide) (by decide)
    (by decide)).2 (by simp [show isDollar "a/b" = false by decide])).2.2
  have hmatch : Topics.topicMatch "a/+/#" "a/b" = true := by
    rw [topicMatch_eq (by decide) (by decide)]
    decide
  rwa [hmatch] at h

/-- A wildcard is kept from a topic that begins with `$` by `TopicMatch`, and by nothing else. -/
theorem wildcard_matches_dollar :
    validTopicFilter "#" = true ∧ isShared "#" = false ∧ validTopicName "$SYS/uptime" = true ∧
    Topics.topicMatch "#" "$SYS/uptime" = false ∧
    Cluster.topicMatchesFilter "$SYS/uptime" "#" = true ∧
    Badger.topicMatchesFilter "$SYS/uptime" "#" = true ∧
    (TrieRouter.newRouter.subscribe "c" "#" 0 {}).matchInto "$SYS/uptime" [] =
      [{ clientID := "c", filter := "#", qos := 0 }] := by
  decide

end FluxMQ.Router
