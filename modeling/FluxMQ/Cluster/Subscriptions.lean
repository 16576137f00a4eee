import FluxMQ.Router.TrieRouter
import Mathlib.Data.List.Dedup

/-!
# The index of the cluster's subscriptions

Every node keeps the subscriptions of all clients, which are stored in etcd, in a trie of its own:
`loadSubscriptionCache`, `watchSubscriptions` and `indexSubscription` in `cluster/etcd.go`, with
`RoutePublish` and `ShareGroupMembers`, which read it. Under its client identifier a client has the list
that `AddSubscription` and `RemoveSubscription` write (`Entry`).

* `SubscriptionCache`: what a node keeps, with `load`, `put` and `delete`.
* `Tracks`: it is what the entries stored make of it.
* `Faithful`: what its users rely on.
* `faithful_run`: they may, as long as no client has two subscriptions with the same bare filter and no
  two clients have subscriptions with the same cache key.

A request for the owner of a session that fails counts as one that finds none. Cancellation of the
request that is being served, and the messages that are sent to the nodes found, are left out.
-/

namespace FluxMQ.Cluster

open Topics Router List AList

/-! ### Filters -/

/-- `ParseShared`: the share name, the filter behind it, and whether the filter is shared. -/
def parseSharedFilter (filter : String) : String × String × Bool :=
  if isShared filter then
    match parseShared (filter.toList.drop "$share/".length) with
    | none => ("", filter, false)
    | some (shareName, topicFilter) => (String.ofList shareName, String.ofList topicFilter, true)
  else ("", filter, false)

/-- The filter that a subscription is indexed under. -/
def bareFilter (filter : String) : String :=
  (parseSharedFilter filter).2.1

/-- `indexSubscription`: the subscription with its share group filled in. -/
def indexSubscription (sub : Subscription) : Subscription :=
  match parseSharedFilter sub.filter with
  | (shareName, _, true) => { sub with options.shareName := shareName }
  | (_, _, false) => sub

/-- The entry of the trie for a subscription. -/
def indexed (sub : Subscription) : Subscription :=
  { indexSubscription sub with filter := bareFilter sub.filter }

/-- The key that a subscription is cached under. -/
def cacheKey (sub : Subscription) : String :=
  sub.clientID ++ "|" ++ sub.filter

/-- The subscription counts as shared. -/
def counts (sub : Subscription) : Bool :=
  (indexSubscription sub).options.shareName ≠ ""

/-- What is stored for a client. -/
structure Entry (clientID : String) where
  subs : List Subscription
  own : ∀ sub ∈ subs, sub.clientID = clientID
  /-- `AddSubscription` replaces the subscription to the same filter. -/
  nodup : (subs.map Subscription.filter).Nodup
  /-- The share group is in the filter only. -/
  unshared : ∀ sub ∈ subs, sub.options.shareName = ""

/-- What is stored for all clients. -/
abbrev Stored := AList Entry

/-- The subscriptions that a client has. -/
def subsOf (stored : Stored) (clientID : String) : List Subscription :=
  (stored.lookup clientID).elim [] fun entry => entry.subs

/-! ### The cache -/

/-- The caches of `EtcdCluster`. -/
structure SubscriptionCache where
  subCache : String → Option Subscription
  clientSubs : String → List String
  subTrie : TrieRouter
  sharedSubCount : Int

namespace SubscriptionCache

def empty : SubscriptionCache where
  subCache := fun _ => none
  clientSubs := fun _ => []
  subTrie := .newRouter
  sharedSubCount := 0

/-- One subscription is cached, counted and indexed. -/
def index (cache : SubscriptionCache) (sub : Subscription) : SubscriptionCache :=
  { cache with
    subCache := Function.update cache.subCache (cacheKey sub) (some (indexSubscription sub))
    subTrie := cache.subTrie.subscribe sub.clientID (bareFilter sub.filter) sub.qos
      (indexSubscription sub).options
    sharedSubCount := cache.sharedSubCount + if counts sub then 1 else 0 }

/-- The subscriptions of one client are indexed, and their keys noted behind those that are there. -/
def indexAll (cache : SubscriptionCache) (clientID : String) (subs : List Subscription) :
    SubscriptionCache :=
  let cache := subs.foldl index cache
  { cache with
    clientSubs := Function.update cache.clientSubs clientID
      (cache.clientSubs clientID ++ subs.map cacheKey) }

/-- `loadSubscriptionCache`. The order of the clients makes no difference. -/
def load (stored : Stored) : SubscriptionCache :=
  stored.entries.foldr (fun entry cache => cache.indexAll entry.1 entry.2.subs) empty

/-- One subscription is forgotten. -/
def forget (cache : SubscriptionCache) (key : String) : SubscriptionCache :=
  match cache.subCache key with
  | none => cache
  | some prev =>
    { cache with
      subCache := Function.update cache.subCache key none
      subTrie := cache.subTrie.unsubscribe prev.clientID (bareFilter prev.filter)
      sharedSubCount := cache.sharedSubCount - if prev.options.shareName ≠ "" then 1 else 0 }

/-- All entries of a client are purged. -/
def purge (cache : SubscriptionCache) (clientID : String) : SubscriptionCache :=
  let cache := (cache.clientSubs clientID).foldl forget cache
  { cache with clientSubs := Function.update cache.clientSubs clientID [] }

/-- `watchSubscriptions` receives a put event. -/
def put (cache : SubscriptionCache) (clientID : String) (subs : List Subscription) :
    SubscriptionCache :=
  (cache.purge clientID).indexAll clientID subs

/-- `watchSubscriptions` receives a delete event. -/
def delete (cache : SubscriptionCache) (clientID : String) : SubscriptionCache :=
  cache.purge clientID

/-! ### Its users -/

/-- The owner of a session: the one in the owner cache, or else the one that etcd names. -/
def owner (ownerCache owners : String → Option String) (clientID : String) : Option String :=
  (ownerCache clientID).or ((owners clientID).filter (· ≠ ""))

/-- `RoutePublish`: the nodes that the message is forwarded to. -/
def routePublish (cache : SubscriptionCache) (nodeID : String)
    (ownerCache owners : String → Option String) (topic : String) : List String :=
  let plain := (cache.subTrie.matchInto topic []).filter fun sub => sub.options.shareName = ""
  ((plain.filterMap fun sub => owner ownerCache owners sub.clientID).filter (· ≠ nodeID)).dedup

/-- A member of a share group, as the cache lists it. -/
structure ShareMember where
  clientID : String
  nodeID : String
  shareName : String
  filter : String
  qos : Nat
  deriving Repr, DecidableEq

/-- `shareMember`, of a subscription that is matched and belongs to a group. -/
def shareMember (nodeID : String) (owner : String → Option String) (sub : Subscription) :
    Option ShareMember :=
  if sub.options.shareName = "" then none
  else
    match owner sub.clientID with
    | none => none
    | some n =>
      if n = nodeID then none else some ⟨sub.clientID, n, sub.options.shareName, sub.filter, sub.qos⟩

/-- `ShareGroupMembers`: the owners that the cache knows first, then those that etcd is asked for. -/
def shareGroupMembers (cache : SubscriptionCache) (nodeID : String)
    (ownerCache owners : String → Option String) (topic : String) (dst : List ShareMember) :
    List ShareMember :=
  if cache.sharedSubCount = 0 then dst
  else
    let matched := cache.subTrie.matchInto topic []
    let misses := matched.filter fun sub => (ownerCache sub.clientID).isNone
    dst ++ matched.filterMap (shareMember nodeID ownerCache) ++
      misses.filterMap (shareMember nodeID fun c => (owners c).filter (· ≠ ""))

end SubscriptionCache

/-! ### Runs -/

/-- What etcd stores, and what a node makes of it. -/
structure State where
  stored : Stored := ∅
  cache : SubscriptionCache := .empty

/-- What a node learns: an event about one client, or everything at once. -/
inductive Action where
  | put (clientID : String) (entry : Entry clientID)
  | delete (clientID : String)
  | reload (stored : Stored)

/-- The entries after an event or a reload. -/
def Action.apply (stored : Stored) : Action → Stored
  | .put clientID entry => stored.insert clientID entry
  | .delete clientID => stored.erase clientID
  | .reload stored => stored

def step (s : State) (a : Action) : State where
  stored := a.apply s.stored
  cache :=
    match a with
    | .put clientID entry => s.cache.put clientID entry.subs
    | .delete clientID => s.cache.delete clientID
    | .reload stored => .load stored

/-- No client has two subscriptions with the same bare filter, and a cache key is that of one client
only. -/
structure Clean (stored : Stored) : Prop where
  bare : ∀ c, ((subsOf stored c).map fun sub => bareFilter sub.filter).Nodup
  keys : ∀ c c', ∀ sub ∈ subsOf stored c, ∀ sub' ∈ subsOf stored c',
    cacheKey sub = cacheKey sub' → c = c'

/-- The number of shared subscriptions of a client. -/
def sharedIn {c : String} (e : Entry c) : Int :=
  (e.subs.countP counts : Nat)

def total (entries : List (Sigma Entry)) : Int :=
  (entries.map fun x => sharedIn x.2).sum

/-- The cache is what the entries stored make of it. -/
structure Tracks (stored : Stored) (cache : SubscriptionCache) : Prop where
  trie : ∀ c f t, cache.subTrie.find c f = some t ↔
    ∃ sub ∈ subsOf stored c, indexed sub = t ∧ t.filter = f
  keys : ∀ c, cache.clientSubs c = (subsOf stored c).map cacheKey
  cached : ∀ c, ∀ sub ∈ subsOf stored c, cache.subCache (cacheKey sub) = some (indexSubscription sub)
  count : cache.sharedSubCount = total stored.entries

/-! ### Subscriptions -/

section

variable {sub sub' : Subscription}

@[simp]
lemma clientID_indexSubscription : (indexSubscription sub).clientID = sub.clientID := by
  unfold indexSubscription
  split <;> rfl

@[simp]
lemma filter_indexSubscription : (indexSubscription sub).filter = sub.filter := by
  unfold indexSubscription
  split <;> rfl

@[simp]
lemma qos_indexSubscription : (indexSubscription sub).qos = sub.qos := by
  unfold indexSubscription
  split <;> rfl

@[simp]
lemma clientID_indexed : (indexed sub).clientID = sub.clientID := by simp [indexed]

@[simp]
lemma filter_indexed : (indexed sub).filter = bareFilter sub.filter := rfl

/-- The entry of the trie is the one that is subscribed. -/
lemma eq_indexed : { clientID := sub.clientID, filter := bareFilter sub.filter, qos := sub.qos
                     options := (indexSubscription sub).options : Subscription } = indexed sub := by
  simp [indexed]

/-- The keys of one client differ as its filters do. -/
lemma filter_of_cacheKey (hclient : sub.clientID = sub'.clientID) (h : cacheKey sub = cacheKey sub') :
    sub.filter = sub'.filter := by
  have hlist := congrArg String.toList h
  simp only [cacheKey, String.toList_append, hclient] at hlist
  exact String.toList_injective (append_cancel_left hlist)

/-- The search for a bare filter finds the subscription that has it. -/
lemma find_bare_iff {subs : List Subscription} {f : String}
    (hbare : (subs.map fun sub => bareFilter sub.filter).Nodup) :
    (subs.find? fun sub => bareFilter sub.filter = f) = some sub ↔
      sub ∈ subs ∧ bareFilter sub.filter = f := by
  constructor
  · intro h
    exact ⟨mem_of_find?_eq_some h, by simpa using find?_some h⟩
  rintro ⟨hsub, hf⟩
  cases hfind : subs.find? fun sub => bareFilter sub.filter = f with
  | none => simpa [hf] using find?_eq_none.1 hfind sub hsub
  | some found =>
    have hfound : bareFilter found.filter = f := by simpa using find?_some hfind
    rw [inj_on_of_nodup_map hbare (mem_of_find?_eq_some hfind) hsub (hfound.trans hf.symm)]

lemma Entry.nodup_keys {c : String} (e : Entry c) : (e.subs.map cacheKey).Nodup := by
  have hfilters := e.nodup
  rw [List.Nodup, pairwise_map] at hfilters ⊢
  refine hfilters.imp_of_mem fun hsub hsub' hne hkey => hne ?_
  exact filter_of_cacheKey ((e.own _ hsub).trans (e.own _ hsub').symm) hkey

end

/-! ### Indexing the subscriptions of a client -/

namespace SubscriptionCache

section

variable {cache : SubscriptionCache} {clientID c f key : String} {sub : Subscription}
  {subs : List Subscription}

lemma find_index :
    (cache.index sub).subTrie.find c f =
      if sub.clientID = c ∧ bareFilter sub.filter = f then some (indexed sub)
      else cache.subTrie.find c f := by
  rw [index, TrieRouter.find_subscribe, eq_indexed]

/-- The subscriptions of a client are found under their bare filters, if these differ. -/
lemma find_foldl_index (hown : ∀ sub ∈ subs, sub.clientID = clientID)
    (hbare : (subs.map fun sub => bareFilter sub.filter).Nodup) :
    (subs.foldl index cache).subTrie.find c f =
      if clientID = c then
        ((subs.find? fun sub => bareFilter sub.filter = f).map indexed).or (cache.subTrie.find c f)
      else cache.subTrie.find c f := by
  induction subs generalizing cache with
  | nil => simp
  | cons sub subs ih =>
    rw [map_cons, nodup_cons] at hbare
    rw [foldl_cons, ih (fun s hs => hown s (mem_cons_of_mem _ hs)) hbare.2, find_index,
      hown sub mem_cons_self]
    by_cases hc : clientID = c
    · by_cases hf : bareFilter sub.filter = f
      · -- No later subscription takes the place of this one.
        have hlater : (subs.find? fun sub => bareFilter sub.filter = f) = none := by
          rw [find?_eq_none]
          intro s hs heq
          exact hbare.1 (mem_map.2 ⟨s, hs, (of_decide_eq_true heq).trans hf.symm⟩)
        simp [hc, hf, hlater]
      · simp [hc, hf]
    · simp [hc]

lemma subCache_foldl_index_of_notMem (h : ∀ sub ∈ subs, cacheKey sub ≠ key) :
    (subs.foldl index cache).subCache key = cache.subCache key := by
  induction subs generalizing cache with
  | nil => rfl
  | cons sub subs ih =>
    rw [foldl_cons, ih fun s hs => h s (mem_cons_of_mem _ hs), index]
    exact Function.update_of_ne (h sub mem_cons_self).symm _ _

lemma subCache_foldl_index_of_mem (hkeys : (subs.map cacheKey).Nodup) (hsub : sub ∈ subs) :
    (subs.foldl index cache).subCache (cacheKey sub) = some (indexSubscription sub) := by
  induction subs generalizing cache with
  | nil => cases hsub
  | cons first subs ih =>
    rw [map_cons, nodup_cons] at hkeys
    rcases mem_cons.1 hsub with rfl | hsub
    · have hlater (s : Subscription) (hs : s ∈ subs) : cacheKey s ≠ cacheKey sub := fun heq =>
        hkeys.1 (heq ▸ mem_map_of_mem hs)
      rw [foldl_cons, subCache_foldl_index_of_notMem hlater, index]
      exact Function.update_self _ _ _
    · exact ih hkeys.2 hsub

@[simp]
lemma clientSubs_foldl_index : (subs.foldl index cache).clientSubs = cache.clientSubs := by
  induction subs generalizing cache with
  | nil => rfl
  | cons sub subs ih => exact ih

lemma sharedSubCount_foldl_index :
    (subs.foldl index cache).sharedSubCount = cache.sharedSubCount + (subs.countP counts : Nat) := by
  induction subs generalizing cache with
  | nil => simp
  | cons sub subs ih =>
    rw [foldl_cons, ih, countP_cons, index]
    dsimp only
    split <;> omega

/-! ### Purging the subscriptions of a client -/

/-- What purging does to each of the caches. -/
structure Purged (cache : SubscriptionCache) (clientID : String) (subs : List Subscription)
    (cache' : SubscriptionCache) : Prop where
  find : ∀ c f, cache'.subTrie.find c f =
    if clientID = c ∧ f ∈ subs.map fun sub => bareFilter sub.filter then none
    else cache.subTrie.find c f
  subCache : ∀ key, cache'.subCache key = if key ∈ subs.map cacheKey then none else cache.subCache key
  clientSubs : cache'.clientSubs = cache.clientSubs
  count : cache'.sharedSubCount = cache.sharedSubCount - (subs.countP counts : Nat)

lemma purged_foldl_forget (hown : ∀ sub ∈ subs, sub.clientID = clientID)
    (hkeys : (subs.map cacheKey).Nodup)
    (hcached : ∀ sub ∈ subs, cache.subCache (cacheKey sub) = some (indexSubscription sub)) :
    Purged cache clientID subs ((subs.map cacheKey).foldl forget cache) := by
  induction subs generalizing cache with
  | nil => exact ⟨by simp, by simp, rfl, by simp⟩
  | cons sub subs ih =>
    rw [map_cons, nodup_cons] at hkeys
    have hforget := hcached sub mem_cons_self
    have hlater : ∀ s ∈ subs, (cache.forget (cacheKey sub)).subCache (cacheKey s) =
        some (indexSubscription s) := by
      intro s hs
      have hne : cacheKey s ≠ cacheKey sub := fun heq => hkeys.1 (heq ▸ mem_map_of_mem hs)
      simp only [forget, hforget]
      rw [Function.update_of_ne hne, hcached s (mem_cons_of_mem _ hs)]
    have hpurged := ih (fun s hs => hown s (mem_cons_of_mem _ hs)) hkeys.2 hlater
    rw [map_cons, foldl_cons]
    refine ⟨fun c f => ?_, fun key => ?_, ?_, ?_⟩
    · rw [hpurged.find, forget, hforget]
      simp only [clientID_indexSubscription, filter_indexSubscription, TrieRouter.find_unsubscribe,
        hown sub mem_cons_self, map_cons, mem_cons]
      by_cases hc : clientID = c
      · by_cases hf : bareFilter sub.filter = f
        · simp [hc, hf]
        · simp [hc, hf, Ne.symm hf]
      · simp [hc]
    · rw [hpurged.subCache, forget, hforget]
      by_cases hkey : key = cacheKey sub
      · simp [hkey]
      · simp [hkey]
    · rw [hpurged.clientSubs, forget, hforget]
    · rw [hpurged.count, forget, hforget, countP_cons]
      simp only [counts, decide_eq_true_eq]
      split <;> omega

end

end SubscriptionCache

/-! ### The entries stored -/

lemma total_kerase (c : String) {entries : List (Sigma Entry)} :
    total (entries.kerase c) = total entries - (entries.dlookup c).elim 0 fun e => sharedIn e := by
  induction entries with
  | nil => simp [total]
  | cons x entries ih =>
    obtain ⟨c', e⟩ := x
    by_cases hc : c = c'
    · subst hc
      simp only [total, kerase_cons_eq, dlookup_cons_eq, map_cons, sum_cons, Option.elim_some]
      omega
    · rw [kerase_cons_ne hc, dlookup_cons_ne _ _ hc]
      simp only [total, map_cons, sum_cons] at ih ⊢
      omega

section

variable {stored : Stored} {c c' : String} {e : Entry c} {sub : Subscription}
  {cache : SubscriptionCache}

lemma subsOf_erase : subsOf (stored.erase c) c' = if c' = c then [] else subsOf stored c' := by
  unfold subsOf
  by_cases hc : c' = c
  · subst hc
    simp
  · simp [hc, lookup_erase_ne hc]

lemma subsOf_insert :
    subsOf (stored.insert c e) c' = if c' = c then e.subs else subsOf stored c' := by
  unfold subsOf
  by_cases hc : c' = c
  · subst hc
    simp
  · simp [hc, lookup_insert_ne hc]

lemma clientID_of_mem (h : sub ∈ subsOf stored c) : sub.clientID = c := by
  unfold subsOf at h
  cases hlookup : stored.lookup c with
  | none => simp [hlookup] at h
  | some e => exact e.own sub (by simpa [hlookup] using h)

lemma nodup_keys : ((subsOf stored c).map cacheKey).Nodup := by
  unfold subsOf
  cases stored.lookup c with
  | none => simp
  | some e => exact e.nodup_keys

/-- What is clean stays so with less. -/
lemma Clean.of_sublist {stored' : Stored} (h : Clean stored)
    (hsub : ∀ c, (subsOf stored' c).Sublist (subsOf stored c)) : Clean stored' where
  bare c := (h.bare c).sublist ((hsub c).map _)
  keys c c' sub hsub' sub' hsub'' := h.keys c c' sub ((hsub c).subset hsub') sub' ((hsub c').subset hsub'')

lemma Clean.erase (h : Clean stored) : Clean (stored.erase c) := by
  refine h.of_sublist fun c' => ?_
  rw [subsOf_erase]
  split
  · exact nil_sublist _
  · exact List.Sublist.refl _

/-! ### The cache tracks the entries -/

lemma Tracks.empty : Tracks ∅ .empty where
  trie c f t := by simp [SubscriptionCache.empty, subsOf]
  keys c := rfl
  cached c sub hsub := by simp [subsOf] at hsub
  count := rfl

lemma Tracks.purge (h : Tracks stored cache) (hclean : Clean stored) (c : String) :
    Tracks (stored.erase c) (cache.purge c) := by
  have hpurged := SubscriptionCache.purged_foldl_forget
    (fun sub hsub => clientID_of_mem (c := c) hsub) nodup_keys (h.cached c)
  rw [← h.keys] at hpurged
  have hfind (c' f : String) : (cache.purge c).subTrie.find c' f = _ := hpurged.find c' f
  refine ⟨fun c' f t => ?_, fun c' => ?_, fun c' sub hsub => ?_, ?_⟩
  · rw [hfind, subsOf_erase]
    by_cases hc : c' = c
    · -- Whatever the client had in the trie is the entry of one of its subscriptions.
      subst hc
      simp only [true_and, if_true]
      split
      · simp
      rename_i hf
      rw [h.trie]
      constructor
      · rintro ⟨sub, hsub, rfl, rfl⟩
        exact absurd (mem_map.2 ⟨sub, hsub, rfl⟩) hf
      · rintro ⟨sub, hsub, -⟩
        cases hsub
    · rw [if_neg fun hand => hc hand.1.symm, if_neg hc, h.trie]
  · rw [subsOf_erase, SubscriptionCache.purge]
    dsimp only
    rw [hpurged.clientSubs]
    by_cases hc : c' = c
    · simp [hc]
    · rw [Function.update_of_ne hc, h.keys, if_neg hc]
  · rw [subsOf_erase] at hsub
    split at hsub
    · cases hsub
    rename_i hc
    have hkey : cacheKey sub ∉ (subsOf stored c).map cacheKey := by
      intro hmem
      obtain ⟨sub', hsub', heq⟩ := mem_map.1 hmem
      exact hc (hclean.keys c' c sub hsub sub' hsub' heq.symm)
    exact (hpurged.subCache _).trans ((if_neg hkey).trans (h.cached c' sub hsub))
  · have hcount : (cache.purge c).sharedSubCount = _ := hpurged.count
    have herase : (stored.erase c).entries = stored.entries.kerase c := rfl
    rw [hcount, h.count, herase, total_kerase]
    unfold subsOf
    rw [AList.lookup]
    cases stored.entries.dlookup c <;> simp [sharedIn]

lemma Tracks.indexAll (h : Tracks stored cache) (hnone : c ∉ stored)
    (hclean : Clean (stored.insert c e)) :
    Tracks (stored.insert c e) (cache.indexAll c e.subs) := by
  have hempty : subsOf stored c = [] := by
    rw [subsOf, lookup_eq_none.2 hnone]
    rfl
  have hbare := hclean.bare c
  rw [subsOf_insert, if_pos rfl] at hbare
  refine ⟨fun c' f t => ?_, fun c' => ?_, fun c' sub hsub => ?_, ?_⟩
  · have hfind : (cache.indexAll c e.subs).subTrie.find c' f = _ :=
      SubscriptionCache.find_foldl_index e.own hbare
    rw [hfind, subsOf_insert]
    by_cases hc : c' = c
    · subst hc
      -- The trie had nothing for this client.
      have hold : cache.subTrie.find c' f = none := by
        by_contra hne
        obtain ⟨t', ht'⟩ := Option.ne_none_iff_exists'.1 hne
        obtain ⟨sub, hsub, -⟩ := (h.trie c' f t').1 ht'
        simp [hempty] at hsub
      simp only [if_true, hold, Option.or_none, Option.map_eq_some_iff, find_bare_iff hbare]
      constructor
      · rintro ⟨sub, ⟨hsub, hf⟩, rfl⟩
        exact ⟨sub, hsub, rfl, hf⟩
      · rintro ⟨sub, hsub, rfl, hf⟩
        exact ⟨sub, ⟨hsub, hf⟩, rfl⟩
    · rw [if_neg (Ne.symm hc), if_neg hc, h.trie]
  · rw [subsOf_insert, SubscriptionCache.indexAll]
    dsimp only
    rw [SubscriptionCache.clientSubs_foldl_index]
    by_cases hc : c' = c
    · subst hc
      simp [h.keys, hempty]
    · rw [Function.update_of_ne hc, h.keys, if_neg hc]
  · rw [subsOf_insert] at hsub
    split at hsub
    · exact SubscriptionCache.subCache_foldl_index_of_mem e.nodup_keys hsub
    rename_i hc
    have hother (s : Subscription) (hs : s ∈ e.subs) : cacheKey s ≠ cacheKey sub := by
      intro heq
      refine hc (hclean.keys c c' s ?_ sub ?_ heq).symm
      · rwa [subsOf_insert, if_pos rfl]
      · rwa [subsOf_insert, if_neg hc]
    exact (SubscriptionCache.subCache_foldl_index_of_notMem hother).trans (h.cached c' sub hsub)
  · have hcount : (cache.indexAll c e.subs).sharedSubCount = _ :=
      SubscriptionCache.sharedSubCount_foldl_index
    rw [hcount, h.count, entries_insert_of_notMem hnone]
    simp only [total, sharedIn, map_cons, sum_cons]
    omega

theorem Tracks.load (hclean : Clean stored) : Tracks stored (.load stored) := by
  obtain ⟨entries, hnodup⟩ := stored
  unfold SubscriptionCache.load
  induction entries with
  | nil => exact .empty
  | cons entry entries ih =>
    obtain ⟨c, e⟩ := entry
    have hrest := nodupKeys_of_nodupKeys_cons hnodup
    have hinsert : (⟨⟨c, e⟩ :: entries, hnodup⟩ : Stored) = AList.insert c e ⟨entries, hrest⟩ :=
      mk_cons_eq_insert _ _ _
    have hnone : c ∉ (⟨entries, hrest⟩ : Stored) := notMem_keys_of_nodupKeys_cons hnodup
    rw [hinsert] at hclean ⊢
    -- The entries loaded before are a part of all of them.
    have hbefore : Clean (⟨entries, hrest⟩ : Stored) := by
      refine hclean.of_sublist fun c' => ?_
      rw [subsOf_insert]
      split
      · rename_i hc
        rw [hc, subsOf, lookup_eq_none.2 hnone]
        exact nil_sublist _
      · exact List.Sublist.refl _
    rw [entries_insert_of_notMem hnone]
    exact (ih hrest hbefore).indexAll hnone hclean

/-- Every event and every reload keeps the cache in step with the entries. -/
lemma tracks_step (s : State) (a : Action) (h : Clean s.stored ∧ Tracks s.stored s.cache)
    (hclean : Clean (a.apply s.stored)) :
    Clean (step s a).stored ∧ Tracks (step s a).stored (step s a).cache := by
  refine ⟨hclean, ?_⟩
  obtain ⟨hbefore, htracks⟩ := h
  cases a with
  | put c e =>
    -- The entry is inserted into what the purge has left.
    have hnone : c ∉ s.stored.erase c := by simp
    have hinsert : s.stored.insert c e = (s.stored.erase c).insert c e := by
      refine AList.ext ?_
      rw [entries_insert, entries_insert_of_notMem hnone]
      rfl
    have hafter : Clean (s.stored.insert c e) := hclean
    rw [hinsert] at hafter
    have hput := (htracks.purge hbefore c).indexAll hnone hafter
    rwa [← hinsert] at hput
  | delete c => exact htracks.purge hbefore c
  | reload stored => exact .load hclean

lemma total_nonneg (entries : List (Sigma Entry)) : 0 ≤ total entries := by
  induction entries with
  | nil => simp [total]
  | cons x entries ih =>
    simp only [total, sharedIn, map_cons, sum_cons] at ih ⊢
    omega

/-- A shared subscription is counted. -/
lemma total_pos (hsub : sub ∈ subsOf stored c) (hcounts : counts sub = true) :
    0 < total stored.entries := by
  unfold subsOf at hsub
  cases hlookup : stored.lookup c with
  | none => simp [hlookup] at hsub
  | some e =>
    have hmem : sub ∈ e.subs := by simpa [hlookup] using hsub
    have hpos : 0 < e.subs.countP counts := countP_pos_iff.2 ⟨sub, hmem, hcounts⟩
    have hrest := total_nonneg (stored.entries.kerase c)
    rw [total_kerase, show stored.entries.dlookup c = some e from hlookup] at hrest
    simp only [Option.elim_some, sharedIn] at hrest
    omega

end

/-! ### What the users of the cache rely on -/

/-- The trie has an entry for each subscription stored and nothing else, each of which is found for the
topics that its bare filter matches. A message is forwarded to every node that owns a client with a
plain subscription to its topic, and every member elsewhere of a share group is reported. -/
structure Faithful (stored : Stored) (cache : SubscriptionCache) : Prop where
  holds : ∀ c f t, cache.subTrie.find c f = some t ↔
    ∃ sub ∈ subsOf stored c, indexed sub = t ∧ t.filter = f
  matching : ∀ topic, validTopicName topic = true →
    ∀ c, ∀ sub ∈ subsOf stored c, validTopicFilter sub.filter = true →
      ((cache.subTrie.matchInto topic []).filter fun t =>
          t.clientID = c ∧ t.filter = bareFilter sub.filter) =
        if topicMatchesFilter topic (bareFilter sub.filter) then [indexed sub] else []
  routes : ∀ nodeID ownerCache owners topic,
    ∀ c, ∀ sub ∈ subsOf stored c, validTopicFilter sub.filter = true → isShared sub.filter = false →
      topicMatchesFilter topic sub.filter = true →
      ∀ n ∈ SubscriptionCache.owner ownerCache owners c, n ≠ nodeID →
        n ∈ cache.routePublish nodeID ownerCache owners topic
  members : ∀ nodeID ownerCache owners topic dst,
    ∀ c, ∀ sub ∈ subsOf stored c, validTopicFilter sub.filter = true →
      ∀ group filter, parseSharedFilter sub.filter = (group, filter, true) →
      topicMatchesFilter topic filter = true →
      ∀ n ∈ SubscriptionCache.owner ownerCache owners c, n ≠ nodeID →
        ⟨c, n, group, filter, sub.qos⟩ ∈ cache.shareGroupMembers nodeID ownerCache owners topic dst

section

variable {stored : Stored} {cache : SubscriptionCache} {c topic : String} {sub : Subscription}

/-- The two kinds of valid filters. -/
lemma parseSharedFilter_spec {filter : String} (h : validTopicFilter filter = true) :
    (isShared filter = false ∧ parseSharedFilter filter = ("", filter, false) ∧
      validLevels (levels filter) = true) ∨
    ∃ name topicFilter, isShared filter = true ∧ parseSharedFilter filter = (name, topicFilter, true) ∧
      name ≠ "" ∧ validLevels (levels topicFilter) = true := by
  by_cases hshared : isShared filter = true
  · have hvalid := h
    unfold validTopicFilter at hvalid
    unfold parseSharedFilter
    simp only [hshared, if_true]
    unfold isShared at hshared
    simp only [hshared, if_true] at hvalid
    split at hvalid
    · cases hvalid
    cases hparse : parseShared (filter.toList.drop "$share/".toList.length) with
    | none =>
      rw [hparse] at hvalid
      cases hvalid
    | some parts =>
      obtain ⟨name, topicFilter⟩ := parts
      rw [hparse] at hvalid
      simp only [Bool.and_eq_true, decide_eq_true_eq] at hvalid
      refine .inr ⟨String.ofList name, String.ofList topicFilter, trivial, ?_, ?_, ?_⟩
      · have hlength : "$share/".length = "$share/".toList.length := rfl
        rw [hlength, hparse]
      · intro hname
        have hnil := congrArg String.toList hname
        simp at hnil
        exact hvalid.1.1.1.1 hnil
      · rw [levels, String.toList_ofList]
        exact hvalid.2
  · refine .inl ⟨by simpa using hshared, ?_, validLevels_of_valid h⟩
    simp [parseSharedFilter, hshared]

lemma shareName_of_mem (h : sub ∈ subsOf stored c) : sub.options.shareName = "" := by
  unfold subsOf at h
  cases hlookup : stored.lookup c with
  | none => simp [hlookup] at h
  | some e => exact e.unshared sub (by simpa [hlookup] using h)

/-- The wildcards of a bare filter stand where they may. -/
lemma validLevels_bareFilter {filter : String} (h : validTopicFilter filter = true) :
    validLevels (levels (bareFilter filter)) = true := by
  obtain ⟨-, hparse, hlevels⟩ | ⟨name, topicFilter, -, hparse, -, hlevels⟩ := parseSharedFilter_spec h
  · rwa [bareFilter, hparse]
  · rwa [bareFilter, hparse]

/-- The entry of a subscription is found for the topics that its bare filter matches. -/
lemma Tracks.mem_matchInto (h : Tracks stored cache) (hsub : sub ∈ subsOf stored c)
    (hvalid : validTopicFilter sub.filter = true)
    (hmatch : topicMatchesFilter topic (bareFilter sub.filter) = true) :
    indexed sub ∈ cache.subTrie.matchInto topic [] := by
  rw [TrieRouter.mem_matchInto, clientID_indexed, clientID_of_mem hsub, filter_indexed]
  exact ⟨(h.trie _ _ _).2 ⟨sub, hsub, rfl, rfl⟩,
    (matchLevels_iff_covers (validLevels_bareFilter hvalid)).1 hmatch⟩

lemma Tracks.faithful (h : Tracks stored cache) : Faithful stored cache where
  holds := h.trie
  matching topic htopic c sub hsub hvalid := by
    have hfind : cache.subTrie.find c (bareFilter sub.filter) = some (indexed sub) :=
      (h.trie _ _ _).2 ⟨sub, hsub, rfl, rfl⟩
    rw [TrieRouter.filter_matchInto (validLevels_bareFilter hvalid) htopic, hfind]
    rfl
  routes nodeID ownerCache owners topic c sub hsub hvalid hplain hmatch n hn hne := by
    obtain ⟨-, hparse, -⟩ | ⟨_, _, hshared, -⟩ := parseSharedFilter_spec hvalid
    · have hbare : bareFilter sub.filter = sub.filter := by rw [bareFilter, hparse]
      have hgroup : (indexed sub).options.shareName = "" := by
        simp [indexed, indexSubscription, hparse, shareName_of_mem hsub]
      have hmem := h.mem_matchInto hsub hvalid (hbare.symm ▸ hmatch)
      rw [SubscriptionCache.routePublish, mem_dedup, mem_filter, mem_filterMap]
      refine ⟨⟨indexed sub, mem_filter.2 ⟨hmem, by simpa using hgroup⟩, ?_⟩, by simpa using hne⟩
      rwa [clientID_indexed, clientID_of_mem hsub]
    · simp [hplain] at hshared
  members nodeID ownerCache owners topic dst c sub hsub hvalid group filter hparse hmatch n hn hne := by
    obtain ⟨-, hplain, -⟩ | ⟨name, topicFilter, -, hshared, hname, -⟩ := parseSharedFilter_spec hvalid
    · simp [hplain] at hparse
    obtain ⟨rfl, rfl⟩ : name = group ∧ topicFilter = filter := by simpa [hshared] using hparse
    have hbare : bareFilter sub.filter = topicFilter := by rw [bareFilter, hshared]
    have hentry : indexed sub = { sub with filter := topicFilter, options.shareName := name } := by
      simp [indexed, indexSubscription, hshared, hbare]
    have hcounts : counts sub = true := by simp [counts, indexSubscription, hshared, hname]
    have hcount : cache.sharedSubCount ≠ 0 := by
      rw [h.count]
      exact (total_pos hsub hcounts).ne'
    have hmem := h.mem_matchInto hsub hvalid (hbare.symm ▸ hmatch)
    have hclient := clientID_of_mem hsub
    have hmember (owner : String → Option String) (howner : owner c = some n) :
        SubscriptionCache.shareMember nodeID owner (indexed sub) =
          some ⟨c, n, name, topicFilter, sub.qos⟩ := by
      simp [SubscriptionCache.shareMember, hentry, hname, hclient, howner, hne]
    rw [SubscriptionCache.shareGroupMembers, if_neg hcount]
    simp only [mem_append, mem_filterMap]
    -- The owner is known, or etcd is asked for it.
    cases hcached : ownerCache c with
    | some n' =>
      obtain rfl : n' = n := by simpa [SubscriptionCache.owner, hcached] using hn
      exact .inl (.inr ⟨indexed sub, hmem, hmember ownerCache hcached⟩)
    | none =>
      have howner : (owners c).filter (· ≠ "") = some n := by
        simpa [SubscriptionCache.owner, hcached] using hn
      refine .inr ⟨indexed sub, mem_filter.2 ⟨hmem, ?_⟩, hmember _ howner⟩
      simp [hclient, hcached]

end

/-- The cache is faithful to what is stored after any events and reloads, as long as no client has two
subscriptions with the same bare filter at a time, and no two clients have subscriptions with the same
cache key. -/
theorem faithful_run (actions : List Action)
    (hclean : Transition.Along step (fun s a => Clean (a.apply s.stored)) {} actions) :
    Faithful (Transition.run step {} actions).stored (Transition.run step {} actions).cache := by
  have hstart : Clean (∅ : Stored) := ⟨by simp [subsOf], by simp [subsOf]⟩
  have hrun := Transition.invariant_run (I := fun s : State => Clean s.stored ∧ Tracks s.stored s.cache)
    tracks_step ⟨hstart, .empty⟩ hclean
  exact hrun.2.faithful

/-- A client with a plain subscription and a member of a group, on another node. -/
theorem faithful_run_reloaded :
    let ann : Entry "ann" := ⟨[{ clientID := "ann", filter := "a/+", qos := 1 },
      { clientID := "ann", filter := "$share/g/b", qos := 2 }], by decide, by decide, by decide⟩
    let s := Transition.run step {} [.put "ann" ann, .delete "ann", .reload (AList.singleton "ann" ann)]
    "n2" ∈ s.cache.routePublish "n1" (fun _ => none) (fun _ => some "n2") "a/x" ∧
    ⟨"ann", "n2", "g", "b", 2⟩ ∈
      s.cache.shareGroupMembers "n1" (fun _ => none) (fun _ => some "n2") "b" [] := by
  intro ann s
  have hclean (stored : Stored) (h : ∀ c, subsOf stored c = if c = "ann" then ann.subs else []) :
      Clean stored := by
    refine ⟨fun c => ?_, fun c c' sub hsub sub' hsub' _ => ?_⟩
    · rw [h]
      split
      · decide
      · simp
    rw [h] at hsub hsub'
    split at hsub
    · rename_i hc
      split at hsub'
      · rename_i hc'
        exact hc.trans hc'.symm
      · cases hsub'
    · cases hsub
  have hsingle : Clean (singleton "ann" ann) := hclean _ fun c => by
    rw [← insert_empty, subsOf_insert]
    simp [subsOf]
  have hfaithful := faithful_run [.put "ann" ann, .delete "ann", .reload (singleton "ann" ann)]
    ⟨hsingle, hsingle.erase, hsingle, trivial⟩
  have hstored : subsOf s.stored "ann" = ann.subs := by
    simp [s, step, Action.apply, ← insert_empty, subsOf_insert]
  refine ⟨hfaithful.routes "n1" _ _ "a/x" "ann" (ann.subs.get ⟨0, by decide⟩) ?_ (by decide) (by decide)
    (by decide) "n2" (by decide) (by decide),
    hfaithful.members "n1" _ _ "b" [] "ann" (ann.subs.get ⟨1, by decide⟩) ?_ (by decide) "g" "b"
    (by decide) (by decide) "n2" (by decide) (by decide)⟩
  · rw [hstored]; exact get_mem _ _
  · rw [hstored]; exact get_mem _ _

/-- A plain subscription is lost to the member of a group with the same bare filter, and a subscription
to that of a client whose name makes their keys the same. -/
theorem overwritten_and_unsubscribed :
    let ann : Entry "ann" := ⟨[{ clientID := "ann", filter := "a", qos := 1 },
      { clientID := "ann", filter := "$share/g/a", qos := 1 }], by decide, by decide, by decide⟩
    let bob : Entry "bob" := ⟨[{ clientID := "bob", filter := "x|y", qos := 1 }],
      by decide, by decide, by decide⟩
    let bobx : Entry "bob|x" := ⟨[{ clientID := "bob|x", filter := "y", qos := 1 }],
      by decide, by decide, by decide⟩
    let s := Transition.run step {} [.put "ann" ann]
    let t := Transition.run step {} [.put "bob|x" bobx, .put "bob" bob, .delete "bob|x"]
    s.cache.routePublish "n1" (fun _ => none) (fun _ => some "n2") "a" = [] ∧
    (subsOf t.stored "bob|x" = [] ∧ subsOf t.stored "bob" = bob.subs) ∧
    t.cache.subTrie.find "bob" "x|y" = none ∧
    t.cache.subTrie.find "bob|x" "y" = some { clientID := "bob|x", filter := "y", qos := 1 } := by
  decide

end FluxMQ.Cluster
