import Mathlib.Data.List.Perm.Subperm
import Mathlib.Data.List.Range
import Mathlib.Data.List.Nodup
import Mathlib.Data.Nat.ModEq

/-!
# Distribution of a published message

`Publish`, `distribute` and `distributeLocal` of `mqtt/broker/publish.go` for a message that a client
of this node has published, with `deliverToShareGroup`. What the router, the stores, the sessions and
the other nodes answer is given with every distribution (`Surroundings`).

* `publish`: which local sessions are handed the message, and whether the publisher gets an error.
* `Surroundings.addressees`: the local sessions that the subscriptions to the topic name.
* `count_handed_publish`: no session is handed the message more often than it is named there.
* `missed_publish`: no delivery that was tried is in vain if the sessions take what they are given.

Metrics, webhooks and event hooks are left out, and so is the capture by streams, whose failure has no
consequence for the publication.
-/

namespace FluxMQ.Mqtt

open List

/-- A share group: its name and its filter. -/
structure ShareGroupID where
  name : String
  filter : String
  deriving Repr, DecidableEq

/-- Whom a subscription of the router is for. A share group stands under a client identifier of its
own making there. -/
inductive Subscriber where
  | client (clientID : String)
  | group (id : ShareGroupID)
  deriving Repr, DecidableEq

/-- A subscription that matches the topic. -/
structure Subscription where
  subscriber : Subscriber
  qos : Nat := 2
  noLocal : Bool := false
  retainAsPublished : Bool := false
  deriving Repr, DecidableEq

/-- `ShareSubscriber`: a member of a share group on this node. -/
structure ShareSubscriber where
  clientID : String
  qos : Nat := 2
  deriving Repr, DecidableEq

/-- `ShareMember`: a member of a share group on another node. -/
structure ShareMember where
  id : ShareGroupID
  nodeID : String
  clientID : String
  qos : Nat := 2
  deriving Repr, DecidableEq

/-- A message as its publisher sent it. -/
structure Envelope where
  topic : String
  payload : String := ""
  qos : Nat := 2
  retain : Bool := false
  sourceClientID : String := ""
  deriving Repr, DecidableEq

/-- Where a publication goes. -/
inductive RouteKind where
  | pubSub
  | queue
  | queueAck
  | queueCommit
  | queueMalformed
  deriving Repr, DecidableEq

/-- Why a message was not published. -/
inductive PublishError where
  | retained
  | queueMalformed
  | queueAck
  | queue
  | matching
  | clusterRoute
  deriving Repr, DecidableEq

/-- What the broker finds, and is answered, while it publishes one message. -/
structure Surroundings where
  /-- The retained message could be stored. -/
  retained : Bool := true
  /-- There is a queue manager, and it takes what it is given. -/
  queueManager : Bool := true
  queue : Bool := true
  /-- `MatchInto` gives the subscriptions to the topic. -/
  matching : Bool := true
  matched : List Subscription := []
  /-- The members of share groups here and the turns they are at, and those elsewhere. -/
  members : ShareGroupID → List ShareSubscriber := fun _ => []
  cursors : ShareGroupID → Nat := fun _ => 0
  remote : List ShareMember := []
  /-- `sessionsMap`. -/
  hasSession : String → Bool := fun _ => true
  crossDeliver : Bool := false
  /-- Whether a delivery is taken, for the first one tried, the second one and so on. -/
  takes : Nat → Bool := fun _ => true
  /-- There is a cluster, and it routes the message to the other nodes. -/
  cluster : Bool := true
  routePublish : Bool := true

/-- A message that was handed to a local session. -/
structure Handover where
  clientID : String
  qos : Nat
  retain : Bool
  taken : Bool
  deriving Repr, DecidableEq

/-- How far a distribution has come. -/
structure Fanout where
  served : List ShareGroupID := []
  handed : List Handover := []
  /-- How many deliveries have been tried. -/
  tries : Nat := 0
  /-- Some subscriber was tried in vain. -/
  missed : Bool := false
  deriving Repr, DecidableEq

namespace Surroundings

variable (env : Surroundings) (msg : Envelope)

/-- `DeliverToSession` and `deliverSharedQoS0`. -/
def deliverToSession (f : Fanout) (clientID : String) (qos : Nat) (retain : Bool) : Fanout × Bool :=
  let taken := env.takes f.tries
  ({ f with handed := f.handed ++ [⟨clientID, qos, retain, taken⟩], tries := f.tries + 1 }, taken)

def deliverShareLocal (f : Fanout) (member : ShareSubscriber) : Fanout × Bool :=
  if env.hasSession member.clientID then
    env.deliverToSession f member.clientID (min msg.qos member.qos) false
  else (f, false)

def deliverShareRemote (f : Fanout) : Fanout × Bool :=
  if env.cluster then ({ f with tries := f.tries + 1 }, env.takes f.tries) else (f, false)

/-- How many members a share group has here. -/
def localCount (id : ShareGroupID) : Nat := (env.members id).length

/-- `ShareGroupMembers`. A broker with no cluster has none. -/
def shareGroupMembers : List ShareMember := if env.cluster then env.remote else []

/-- `shareMemberCount`. -/
def remoteCount (id : ShareGroupID) : Nat :=
  env.shareGroupMembers.countP fun member => member.id = id

/-- The turns of `deliverToShareGroup` that `indices` gives. A member elsewhere is only a number here:
all that comes back is whether it took the message. -/
def tryMembers (id : ShareGroupID) : (indices : List Nat) → (f : Fanout) → Fanout × Bool
  | [], f => (f, false)
  | index :: indices, f =>
    if index < env.localCount id then
      match (env.members id)[index]? with
      | none => tryMembers id indices f
      | some member =>
        match env.deliverShareLocal msg f member with
        | (f, true) => (f, true)
        | (f, false) => tryMembers id indices f
    else
      match env.deliverShareRemote f with
      | (f, true) => (f, true)
      | (f, false) => tryMembers id indices f

/-- The order of a pass over a share group: from the member whose turn it is. -/
def turns (id : ShareGroupID) : List Nat :=
  let total := env.localCount id + env.remoteCount id
  let rotation := env.cursors id % total
  (List.range total).map fun offset => (rotation + offset) % total

/-- `deliverToShareGroup`, for a group that has not been served. -/
def deliverToShareGroup (f : Fanout) (id : ShareGroupID) : Fanout :=
  match env.tryMembers msg id (env.turns id) { f with served := f.served ++ [id] } with
  | (f', true) => f'
  | (f', false) => { f' with missed := f'.missed || f.tries < f'.tries }

/-- A client of an AMQP broker. -/
def isAMQPClient (clientID : String) : Bool :=
  "amqp091:".isPrefixOf clientID || "amqp:".isPrefixOf clientID

/-- The loop of `distributeLocal` over the subscriptions that match. -/
def deliverMatched (f : Fanout) (sub : Subscription) : Fanout :=
  match sub.subscriber with
  | .group id => if id ∈ f.served then f else env.deliverToShareGroup msg f id
  | .client clientID =>
    if sub.noLocal ∧ clientID = msg.sourceClientID then f
    else if isAMQPClient clientID then
      if env.crossDeliver then
        { f with handed := f.handed ++ [⟨clientID, sub.qos, false, true⟩] }
      else f
    else if env.hasSession clientID then
      match env.deliverToSession f clientID (min msg.qos sub.qos)
          (msg.retain && sub.retainAsPublished) with
      | (f, true) => f
      | (f, false) => { f with missed := true }
    else f

/-- The loop of `distributeLocal` over the members elsewhere. -/
def deliverRemote (f : Fanout) (member : ShareMember) : Fanout :=
  if member.id ∈ f.served then f else env.deliverToShareGroup msg f member.id

def distributeLocal : Fanout :=
  env.shareGroupMembers.foldl (env.deliverRemote msg) (env.matched.foldl (env.deliverMatched msg) {})

def distribute : Fanout × Option PublishError :=
  if env.matching = false then ({}, some .matching)
  else
    let f := env.distributeLocal msg
    if env.cluster ∧ env.routePublish = false then
      -- The local sessions have been served by now.
      ({ f with missed := true }, if 0 < msg.qos then some .clusterRoute else none)
    else (f, none)

def publish (kind : RouteKind) : Fanout × Option PublishError :=
  if msg.retain ∧ env.retained = false ∧ kind ≠ .queue then ({}, some .retained)
  else if msg.retain ∧ kind = .queue then ({}, none)
  else
    match env.queueManager, kind with
    | true, .queueMalformed => ({}, some .queueMalformed)
    | true, .queueAck => ({}, if env.queue then none else some .queueAck)
    | true, .queue => ({}, if env.queue then none else some .queue)
    | _, _ => env.distribute msg

/-! ### Who is served -/

/-- The local sessions that subscriptions name, a share group counting once. -/
def namedBy : (served : List ShareGroupID) → List Subscriber → List String
  | _, [] => []
  | served, .client clientID :: subscribers => clientID :: namedBy served subscribers
  | served, .group id :: subscribers =>
    if id ∈ served then namedBy served subscribers
    else (env.members id).map (·.clientID) ++ namedBy (served ++ [id]) subscribers

/-- The local sessions that the subscriptions to the topic name. -/
def addressees : List String :=
  env.namedBy [] (env.matched.map (·.subscriber) ++
    env.shareGroupMembers.map fun member => .group member.id)

end Surroundings

/-- Whom a distribution has handed the message to. -/
def Fanout.clients (f : Fanout) : List String := f.handed.map (·.clientID)

/-- A distribution goes on and hands the message to the sessions of a list at most as often as they
stand there. -/
structure Fanout.Serves (f f' : Fanout) (names : List String) : Prop where
  count : ∀ c, f'.clients.count c ≤ f.clients.count c + names.count c
  tries : f.tries ≤ f'.tries

namespace Fanout.Serves

variable {f f' f'' : Fanout} {names more : List String}

lemma refl (f : Fanout) (names : List String) : f.Serves f names :=
  ⟨fun _ => Nat.le_add_right _ _, Nat.le_refl _⟩

lemma trans (h : f.Serves f' names) (h' : f'.Serves f'' more) : f.Serves f'' (names ++ more) where
  count c := by
    have := h.count c
    have := h'.count c
    rw [count_append]
    omega
  tries := Nat.le_trans h.tries h'.tries

end Fanout.Serves

namespace Surroundings

variable {env : Surroundings} {msg : Envelope} {f : Fanout} {id : ShareGroupID}

lemma serves_deliverToSession (clientID : String) (qos : Nat) (retain : Bool) :
    f.Serves (env.deliverToSession f clientID qos retain).1 [clientID] where
  count c := by simp [deliverToSession, Fanout.clients]
  tries := Nat.le_succ _

lemma serves_deliverShareLocal (member : ShareSubscriber) :
    f.Serves (env.deliverShareLocal msg f member).1 [member.clientID] := by
  unfold deliverShareLocal
  split
  · exact serves_deliverToSession _ _ _
  · exact .refl f _

lemma serves_deliverShareRemote : f.Serves (env.deliverShareRemote f).1 [] := by
  unfold deliverShareRemote
  split
  · exact ⟨fun c => Nat.le_refl _, Nat.le_succ _⟩
  · exact .refl f _

/-- The local members that turns stand for. -/
def membersAt (env : Surroundings) (id : ShareGroupID) (indices : List Nat) : List String :=
  (indices.filterMap fun index => (env.members id)[index]?).map (·.clientID)

lemma membersAt_cons_of_some {index : Nat} {indices : List Nat} {member : ShareSubscriber}
    (h : (env.members id)[index]? = some member) :
    env.membersAt id (index :: indices) = [member.clientID] ++ env.membersAt id indices := by
  simp [membersAt, h]

lemma membersAt_cons_of_none {index : Nat} {indices : List Nat}
    (h : (env.members id)[index]? = none) :
    env.membersAt id (index :: indices) = [] ++ env.membersAt id indices := by
  simp [membersAt, h]

lemma serves_tryMembers (indices : List Nat) (f : Fanout) :
    f.Serves (env.tryMembers msg id indices f).1 (env.membersAt id indices) := by
  induction indices generalizing f with
  | nil => exact .refl f _
  | cons index indices ih =>
    simp only [tryMembers]
    split
    · split
      · rename_i hnone
        rw [membersAt_cons_of_none hnone]
        exact (Fanout.Serves.refl f []).trans (ih f)
      rename_i member hsome
      have hserved : f.Serves (env.deliverShareLocal msg f member).1 [member.clientID] :=
        serves_deliverShareLocal member
      rw [membersAt_cons_of_some hsome]
      split
      · rename_i f' htaken
        rw [htaken] at hserved
        exact hserved.trans (.refl f' _)
      · rename_i f' hrefused
        rw [hrefused] at hserved
        exact hserved.trans (ih f')
    · rename_i hremote
      have hserved : f.Serves (env.deliverShareRemote f).1 [] := serves_deliverShareRemote
      rw [membersAt_cons_of_none (getElem?_eq_none (Nat.le_of_not_lt hremote))]
      split
      · rename_i f' htaken
        rw [htaken] at hserved
        exact hserved.trans (.refl f' _)
      · rename_i f' hrefused
        rw [hrefused] at hserved
        exact hserved.trans (ih f')

/-- A delivery that touches nothing else, and that is only refused untried if the sessions take what
they are given. -/
structure Attempts (env : Surroundings) (f : Fanout) (result : Fanout × Bool) : Prop where
  served : result.1.served = f.served
  missed : result.1.missed = f.missed
  tries : (∀ n, env.takes n = true) → result.2 = false → result.1.tries = f.tries

lemma Attempts.refused (env : Surroundings) (f : Fanout) : env.Attempts f (f, false) :=
  ⟨rfl, rfl, fun _ _ => rfl⟩

lemma attempts_deliverShareLocal (member : ShareSubscriber) :
    env.Attempts f (env.deliverShareLocal msg f member) := by
  unfold deliverShareLocal
  split
  · exact ⟨rfl, rfl, fun htakes hrefused => nomatch (htakes f.tries).symm.trans hrefused⟩
  · exact .refused env f

lemma attempts_deliverShareRemote : env.Attempts f (env.deliverShareRemote f) := by
  unfold deliverShareRemote
  split
  · exact ⟨rfl, rfl, fun htakes hrefused => nomatch (htakes f.tries).symm.trans hrefused⟩
  · exact .refused env f

lemma Attempts.trans {f' : Fanout} {result : Fanout × Bool} (h : env.Attempts f (f', false))
    (h' : env.Attempts f' result) : env.Attempts f result :=
  ⟨h'.served.trans h.served, h'.missed.trans h.missed,
    fun htakes hrefused => (h'.tries htakes hrefused).trans (h.tries htakes rfl)⟩

lemma attempts_tryMembers (indices : List Nat) (f : Fanout) :
    env.Attempts f (env.tryMembers msg id indices f) := by
  induction indices generalizing f with
  | nil => exact .refused env f
  | cons index indices ih =>
    simp only [tryMembers]
    split
    · split
      · exact ih f
      rename_i member _
      have hattempt : env.Attempts f (env.deliverShareLocal msg f member) :=
        attempts_deliverShareLocal member
      split <;> rename_i f' heq <;> rw [heq] at hattempt
      · exact hattempt
      · exact hattempt.trans (ih f')
    · have hattempt : env.Attempts f (env.deliverShareRemote f) := attempts_deliverShareRemote
      split <;> rename_i f' heq <;> rw [heq] at hattempt
      · exact hattempt
      · exact hattempt.trans (ih f')

lemma filterMap_getElem?_range {α : Type} (l : List α) {n : Nat} (h : l.length ≤ n) :
    (range n).filterMap (fun i => l[i]?) = l := by
  induction l generalizing n with
  | nil => simp
  | cons a l ih =>
    obtain ⟨n, rfl⟩ : ∃ m, n = m + 1 := ⟨n - 1, by simp at h; omega⟩
    rw [range_succ_eq_map, filterMap_cons_some (getElem?_cons_zero ..), filterMap_map]
    congr 1
    exact ih (Nat.le_of_succ_le_succ h)

/-- A pass gives every member one turn. -/
lemma turns_perm (env : Surroundings) (id : ShareGroupID) :
    (env.turns id).Perm (range (env.localCount id + env.remoteCount id)) := by
  set total := env.localCount id + env.remoteCount id with htotal
  have hlength : (env.turns id).length = total := by simp [turns, htotal]
  have hlt : ∀ i ∈ env.turns id, i < total := by
    intro i hi
    obtain ⟨offset, hoffset, rfl⟩ := mem_map.mp hi
    exact Nat.mod_lt _ (Nat.lt_of_le_of_lt (Nat.zero_le _) (mem_range.mp hoffset))
  have hnodup : (env.turns id).Nodup := by
    refine nodup_range.map_on fun a ha b hb heq => ?_
    have hmod : a ≡ b [MOD total] := Nat.ModEq.add_left_cancel rfl heq
    exact hmod.eq_of_lt_of_lt (mem_range.mp ha) (mem_range.mp hb)
  have hsub : (env.turns id).Subperm (range total) :=
    subperm_of_subset hnodup fun i hi => mem_range.mpr (hlt i hi)
  exact hsub.perm_of_length_le (by simp [hlength])

lemma count_membersAt_turns (env : Surroundings) (id : ShareGroupID) (c : String) :
    (env.membersAt id (env.turns id)).count c = ((env.members id).map (·.clientID)).count c := by
  have hall : (range (env.localCount id + env.remoteCount id)).filterMap
      (fun i => (env.members id)[i]?) = env.members id :=
    filterMap_getElem?_range _ (Nat.le_add_right _ _)
  have hperm := ((turns_perm env id).filterMap fun i => (env.members id)[i]?).map (·.clientID)
  rw [hall] at hperm
  exact hperm.count_eq c

lemma served_deliverToShareGroup :
    (env.deliverToShareGroup msg f id).served = f.served ++ [id] := by
  have hattempts : env.Attempts { f with served := f.served ++ [id] } (env.tryMembers msg id
    (env.turns id) { f with served := f.served ++ [id] }) := attempts_tryMembers _ _
  unfold deliverToShareGroup
  split <;> rename_i heq <;> rw [heq] at hattempts <;> exact hattempts.served

lemma serves_deliverToShareGroup :
    f.Serves (env.deliverToShareGroup msg f id) ((env.members id).map (·.clientID)) := by
  have hserves : Fanout.Serves { f with served := f.served ++ [id] } (env.tryMembers msg id
    (env.turns id) { f with served := f.served ++ [id] }).1 _ := serves_tryMembers _ _
  unfold deliverToShareGroup
  split <;> rename_i heq <;> rw [heq] at hserves <;>
    exact ⟨fun c => count_membersAt_turns env id c ▸ hserves.count c, hserves.tries⟩

lemma missed_deliverToShareGroup (htakes : ∀ n, env.takes n = true) :
    (env.deliverToShareGroup msg f id).missed = f.missed := by
  have hattempts : env.Attempts { f with served := f.served ++ [id] } (env.tryMembers msg id
    (env.turns id) { f with served := f.served ++ [id] }) := attempts_tryMembers _ _
  unfold deliverToShareGroup
  split <;> rename_i f' heq <;> rw [heq] at hattempts
  · exact hattempts.missed
  · have htries : f'.tries = f.tries := hattempts.tries htakes rfl
    have hmissed : f'.missed = f.missed := hattempts.missed
    simp [htries, hmissed]

/-! ### The loops of `distributeLocal` -/

/-- All that `distributeLocal` goes through. -/
def subscriptions (env : Surroundings) : List Subscription :=
  env.matched ++ env.shareGroupMembers.map fun member => { subscriber := .group member.id }

lemma distributeLocal_eq :
    env.distributeLocal msg = env.subscriptions.foldl (env.deliverMatched msg) {} := by
  rw [subscriptions, foldl_append, foldl_map]
  rfl

lemma addressees_eq : env.addressees = env.namedBy [] (env.subscriptions.map (·.subscriber)) := by
  rw [subscriptions, map_append, map_map]
  rfl

lemma serves_deliverMatched_client {sub : Subscription} {clientID : String} (f : Fanout)
    (hsub : sub.subscriber = .client clientID) :
    f.Serves (env.deliverMatched msg f sub) [clientID] ∧
      (env.deliverMatched msg f sub).served = f.served ∧
      ((∀ n, env.takes n = true) → (env.deliverMatched msg f sub).missed = f.missed) := by
  simp only [deliverMatched, hsub]
  split
  · exact ⟨.refl f _, rfl, fun _ => rfl⟩
  split
  · split
    · exact ⟨⟨fun c => by simp [Fanout.clients], Nat.le_refl _⟩, rfl, fun _ => rfl⟩
    · exact ⟨.refl f _, rfl, fun _ => rfl⟩
  split
  · have hserves : f.Serves (env.deliverToSession f clientID (min msg.qos sub.qos)
        (msg.retain && sub.retainAsPublished)).1 _ := serves_deliverToSession _ _ _
    split <;> rename_i f' heq <;> rw [heq] at hserves
    · cases congrArg Prod.fst heq
      exact ⟨hserves, rfl, fun _ => rfl⟩
    · cases congrArg Prod.fst heq
      exact ⟨⟨hserves.count, hserves.tries⟩, rfl,
        fun htakes => nomatch (htakes f.tries).symm.trans (congrArg Prod.snd heq)⟩
  · exact ⟨.refl f _, rfl, fun _ => rfl⟩

lemma serves_foldl_deliverMatched (subs : List Subscription) (f : Fanout) :
    f.Serves (subs.foldl (env.deliverMatched msg) f)
      (env.namedBy f.served (subs.map (·.subscriber))) := by
  induction subs generalizing f with
  | nil => exact .refl f _
  | cons sub subs ih =>
    rw [foldl_cons, map_cons]
    cases hsub : sub.subscriber with
    | client clientID =>
      obtain ⟨hserves, hserved, -⟩ : f.Serves (env.deliverMatched msg f sub) [clientID] ∧ _ :=
        serves_deliverMatched_client f hsub
      have hrest := ih (env.deliverMatched msg f sub)
      rw [hserved] at hrest
      exact hserves.trans hrest
    | group id =>
      have hrest := ih (env.deliverMatched msg f sub)
      simp only [deliverMatched, hsub, namedBy] at hrest ⊢
      split
      · rename_i hmem
        rwa [if_pos hmem] at hrest
      · rename_i hmem
        rw [if_neg hmem, served_deliverToShareGroup] at hrest
        exact serves_deliverToShareGroup.trans hrest

lemma missed_foldl_deliverMatched (htakes : ∀ n, env.takes n = true) (subs : List Subscription)
    (f : Fanout) : (subs.foldl (env.deliverMatched msg) f).missed = f.missed := by
  induction subs generalizing f with
  | nil => rfl
  | cons sub subs ih =>
    rw [foldl_cons, ih]
    cases hsub : sub.subscriber with
    | client clientID => exact (serves_deliverMatched_client f hsub).2.2 htakes
    | group id =>
      simp only [deliverMatched, hsub]
      split
      · rfl
      · exact missed_deliverToShareGroup htakes

lemma count_clients_distributeLocal (env : Surroundings) (msg : Envelope) (c : String) :
    (env.distributeLocal msg).clients.count c ≤ env.addressees.count c := by
  have hserves : Fanout.Serves {} (env.distributeLocal msg) env.addressees := by
    rw [distributeLocal_eq, addressees_eq]
    exact serves_foldl_deliverMatched _ _
  have hnone : (Fanout.clients {}).count c = 0 := rfl
  have hcount := hserves.count c
  rwa [hnone, Nat.zero_add] at hcount

/-- No session is handed the message more often than the subscriptions name it. -/
lemma count_clients_publish (env : Surroundings) (msg : Envelope) (kind : RouteKind) (c : String) :
    (env.publish msg kind).1.clients.count c ≤ env.addressees.count c := by
  have hlocal := count_clients_distributeLocal env msg c
  have hnone : (Fanout.clients {}).count c ≤ env.addressees.count c := Nat.zero_le _
  unfold publish distribute
  repeat' split
  all_goals first | exact hnone | exact hlocal

lemma missed_distribute (htakes : ∀ n, env.takes n = true) (hqos : 0 < msg.qos)
    (hdone : (env.distribute msg).2 = none) : (env.distribute msg).1.missed = false := by
  have hlocal : (env.distributeLocal msg).missed = false := by
    rw [distributeLocal_eq]
    exact missed_foldl_deliverMatched htakes _ _
  unfold distribute at hdone ⊢
  split at hdone
  · exact nomatch hdone
  rename_i hmatching
  rw [if_neg hmatching]
  split at hdone
  · exact nomatch hdone
  · rename_i hrouted
    rw [if_neg hrouted]
    exact hlocal

/-- If the sessions take what they are given, a publication without an error has missed nobody. -/
theorem missed_publish (htakes : ∀ n, env.takes n = true) (hqos : 0 < msg.qos) (kind : RouteKind)
    (hpublished : (env.publish msg kind).2 = none) : (env.publish msg kind).1.missed = false := by
  have hdistribute := missed_distribute htakes hqos
  revert hpublished
  unfold publish
  repeat' split
  all_goals first | exact hdistribute | exact fun _ => rfl

lemma clients_distributeLocal_of_none (h : env.addressees = []) :
    (env.distributeLocal msg).clients = [] := by
  refine eq_nil_iff_forall_not_mem.mpr fun c hc => ?_
  have hcount := count_clients_distributeLocal env msg c
  rw [h, count_nil] at hcount
  exact absurd (count_pos_iff.mpr hc) (Nat.not_lt.mpr hcount)

/-- A failure leaves no session with the message, unless it is the cluster that could not route it on
when there were sessions here to be served. -/
lemma clients_publish_of_error (kind : RouteKind) (herr : (env.publish msg kind).2 ≠ none)
    (hrouted : env.cluster = true → env.routePublish = false → env.addressees = []) :
    (env.publish msg kind).1.clients = [] := by
  have hdistribute (herr : (env.distribute msg).2 ≠ none) : (env.distribute msg).1.clients = [] := by
    unfold distribute at herr ⊢
    split
    · rfl
    rename_i hmatching
    rw [if_neg hmatching] at herr
    split at herr
    · rename_i hfailed
      rw [if_pos hfailed]
      exact clients_distributeLocal_of_none (hrouted hfailed.1 hfailed.2)
    · exact absurd rfl herr
  revert herr
  unfold publish
  repeat' split
  all_goals first | exact hdistribute | exact fun _ => rfl

end Surroundings

end FluxMQ.Mqtt
