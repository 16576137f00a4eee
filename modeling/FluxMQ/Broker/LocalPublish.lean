import FluxMQ.Broker.ControlVerbs

/-!
# Publish permissions of local principals

`AuthorizePublish` in `broker/localauth/store.go` decides which grant a publication over AMQP 0.9.1 has, by the
permissions that `ValidateLocalPrincipals` in `config/config.go` has accepted. It is asked when the last content
frame is there, so only the permissions of that moment matter.

* `NamesQueues`: a routing key with the prefix can be translated to the address of a queue.
* `publish_within_grant_iff`: prefix grants do not reach a queue by its own address exactly if none of the
  prefixes does that.
* `prefix_names_queue`: the prefix `$queue.` is accepted, and a routing key below it is translated to the address
  of a queue.
-/

namespace FluxMQ.Routing

open Topics
open Queue (TopicIndex)

/-- `LocalPublishPermission`. -/
structure PublishPermission where
  exchange : String := ""
  routingKey : String := ""
  routingKeyPrefix : String := ""
  deriving Repr, DecidableEq

def containsWildcard (value : String) : Bool := value.toList.any (· ∈ ['#', '*', '+'])

/-- There is nothing that `TrimSpace` takes off. -/
def isTrimmed (value : String) : Bool := trimSpace value = value

def PublishPermission.valid (p : PublishPermission) : Bool :=
  p.exchange = "" &&
    if p.routingKeyPrefix ≠ "" then
      p.routingKey = "" && !containsWildcard p.routingKeyPrefix && isTrimmed p.routingKeyPrefix
    else p.routingKey ≠ "" && !containsWildcard p.routingKey

/-- What `ValidateLocalPrincipals` asks of the publish permissions of a principal. -/
def validPublish (permissions : List PublishPermission) : Bool :=
  permissions.all (·.valid) && permissions.Nodup

/-- `AuthorizePublish`, for the permissions of the principal. There are none if the session is not active any
more. -/
def authorizePublish (permissions : Option (List PublishPermission)) (exchange routingKey : String) : Grant :=
  match permissions with
  | none => .none
  | some permissions =>
    if permissions.any fun p =>
        p.routingKeyPrefix = "" ∧ p.exchange = exchange ∧ p.routingKey = routingKey then .exactTarget
    else if exchange ≠ "" then .none
    else if permissions.any fun p =>
        p.routingKeyPrefix ≠ "" ∧ hasPrefix routingKey p.routingKeyPrefix then .grantPrefix
    else .none

namespace Amqp091.Publication

variable (p : Publication) (permissions : Option (List PublishPermission))

def canPublishLocal : Grant := authorizePublish permissions p.exchangeName p.routingKey

/-- `completePublish` with the grant of the permissions at its time. -/
def completeLocal : List Effect :=
  { p with authorization := .local (p.canPublishLocal permissions) }.completePublish

end Amqp091.Publication

open FluxMQ.Routing.Amqp091

variable {p : Publication} {permissions : Option (List PublishPermission)} {idx : TopicIndex}

/-- A prefix is granted for the default exchange, by one of the prefixes. -/
lemma prefix_of_grant (h : p.canPublishLocal permissions = .grantPrefix) :
    p.exchangeName = "" ∧ ∃ granted, permissions = some granted ∧
      ∃ q ∈ granted, q.routingKeyPrefix ≠ "" ∧ hasPrefix p.routingKey q.routingKeyPrefix = true := by
  cases permissions with
  | none => cases h
  | some granted =>
    rw [Publication.canPublishLocal, authorizePublish] at h
    split_ifs at h with hexact hexchange hany
    obtain ⟨q, hq, hgrants⟩ := List.any_eq_true.1 hany
    exact ⟨not_not.1 hexchange, granted, rfl, q, hq, by simpa using hgrants⟩

/-- What is appended to a stream has a permission for exactly this routing key. -/
lemma exact_of_append {queueName : String} (h : .append queueName ∈ p.completeLocal permissions) :
    queueName = p.routingKey ∧ p.exchangeName = "" ∧ ∃ granted, permissions = some granted ∧
      { routingKey := p.routingKey } ∈ granted := by
  rw [Publication.completeLocal, Publication.completePublish] at h
  cases hgrant : p.canPublishLocal permissions with
  | none => simp [hgrant] at h
  | grantPrefix =>
    simp only [hgrant, Publication.publishToPubSub] at h
    split_ifs at h <;> simp at h
  | exactTarget =>
    simp only [hgrant] at h
    split_ifs at h with hguard
    · cases h
    have hexchange : p.exchangeName = "" := not_not.1 (not_or.1 hguard).1
    refine ⟨Effect.append.inj (List.mem_singleton.1 h), hexchange, ?_⟩
    cases permissions with
    | none => cases hgrant
    | some granted =>
      rw [Publication.canPublishLocal, authorizePublish] at hgrant
      split_ifs at hgrant with hexact
      obtain ⟨⟨exchange, routingKey, start⟩, hmem, hkey⟩ := List.any_eq_true.1 hexact
      obtain ⟨rfl, rfl, rfl⟩ := of_decide_eq_true hkey
      exact ⟨granted, rfl, hexchange ▸ hmem⟩

/-! ### Prefixes -/

/-- Some routing key with the prefix is translated to a topic below `$queue/`. -/
def NamesQueues (start : String) : Prop :=
  (amqpTopicToMQTT start).toList <+: queueStart.toList ∨ queueStart.toList <+: (amqpTopicToMQTT start).toList

instance (start : String) : Decidable (NamesQueues start) :=
  inferInstanceAs (Decidable (_ ∨ _))

/-- A pattern that is the address of queues matches no other topics. -/
lemma address_of_match {pattern topic : String} (hvalid : validTopicFilter pattern = true) (htopic : topic ≠ "")
    (haddress : hasPrefix pattern queueStart = true) (hmatch : Topics.topicMatch pattern topic = true) :
    topic.toList = "$queue".toList ∨ queueStart.toList <+: topic.toList := by
  obtain ⟨rest, hrest⟩ := List.isPrefixOf_iff_prefix.1 haddress
  have hcut : (Levels.cut '/' pattern.toList).1 = "$queue".toList := by
    have hlevel : pattern.toList = "$queue".toList ++ '/' :: rest := by rw [← hrest]; rfl
    rw [hlevel, Levels.cut_append (by decide)]
  have hlevels := ((topicMatch_iff (ne_of_valid hvalid) htopic).1 hmatch).2
  have hfirst : (Levels.cut '/' topic.toList).1 = "$queue".toList := by
    rw [← hcut]
    refine ((first_of_matchLevels hlevels).resolve_left fun hwild => ?_).symm
    rw [beginsWithWildcard, hcut] at hwild
    exact absurd hwild (by decide)
  rcases Levels.cut_spec '/' topic.toList with ⟨hnone, -⟩ | ⟨before, after, hsome, htext, -⟩
  · rw [hnone] at hfirst
    exact .inl hfirst
  · rw [hsome] at hfirst
    refine .inr ⟨after, ?_⟩
    rw [htext, show before = "$queue".toList from hfirst]
    rfl

/-- With a prefix grant, a queue keeps the message for an ordinary pattern that it has. -/
lemma ordinary_of_prefix (hidx : ValidPatterns idx)
    (hplain : ∀ granted, permissions = some granted → ∀ q ∈ granted, q.routingKeyPrefix ≠ "" →
      ¬ NamesQueues q.routingKeyPrefix)
    (h : p.canPublishLocal permissions = .grantPrefix) {q : String}
    (hq : q ∈ records idx (p.completeLocal permissions)) :
    ∃ patterns, idx.queues q = some patterns ∧ ∃ pattern ∈ patterns, hasPrefix pattern queueStart = false ∧
      Topics.topicMatch pattern (amqpTopicToMQTT p.routingKey) = true := by
  obtain ⟨hexchange, granted, hgranted, permission, hpermission, hne, hstart⟩ := prefix_of_grant h
  have hbegins : (amqpTopicToMQTT permission.routingKeyPrefix).toList <+:
      (amqpTopicToMQTT p.routingKey).toList := by
    simpa [amqpTopicToMQTT] using ( List.isPrefixOf_iff_prefix.1 hstart).map _
  have htopic : amqpTopicToMQTT p.routingKey ≠ "" := by
    intro hempty
    rw [hempty] at hbegins
    exact hne (by simpa [amqpTopicToMQTT] using hbegins)
  have hfound : q ∈ idx.findMatching (amqpTopicToMQTT p.routingKey) := by
    have htopic : p.topic = p.routingKey := by rw [Publication.topic, if_neg (not_not.2 hexchange)]
    rw [Publication.completeLocal, h, Publication.completePublish] at hq
    dsimp only at hq
    rw [show Publication.topic { p with authorization := .local .grantPrefix } = p.routingKey from htopic,
      Publication.publishToPubSub] at hq
    split_ifs at hq
    · cases hq
    · simpa [records, Effect.records] using hq
    · simp [records, Effect.records] at hq
  obtain ⟨patterns, hpatterns, pattern, hpattern, hmatch⟩ := (TopicIndex.mem_findMatching htopic hidx).1 hfound
  refine ⟨patterns, hpatterns, pattern, hpattern, Bool.eq_false_iff.2 fun haddress => ?_, hmatch⟩
  refine hplain granted hgranted permission hpermission hne ?_
  have hvalid := List.all_eq_true.1 (hidx q patterns hpatterns) pattern hpattern
  rcases address_of_match hvalid htopic haddress hmatch with htext | htext
  · rw [htext] at hbegins
    exact .inl (hbegins.trans (by decide))
  · exact List.prefix_or_prefix_of_prefix hbegins htext

/-- The index with one queue that has every address. -/
def allAddresses : TopicIndex := TopicIndex.newTopicIndex.addQueue "q" ["$queue/#"]

lemma queues_allAddresses {q : String} {patterns : List String} (h : allAddresses.queues q = some patterns) :
    patterns = ["$queue/#"] := by
  simp only [allAddresses, TopicIndex.addQueue, Function.update_apply] at h
  split at h
  · exact (Option.some.inj h).symm
  · cases h

lemma validPatterns_allAddresses : ValidPatterns allAddresses := by
  intro q patterns h
  rw [queues_allAddresses h]
  decide +kernel

lemma match_address (rest : List Char) :
    Topics.topicMatch "$queue/#" (String.ofList (queueStart.toList ++ rest)) = true := by
  have hlevels : levels (String.ofList (queueStart.toList ++ rest)) = "$queue".toList :: rest.splitOn '/' := by
    have htext : queueStart.toList ++ rest = "$queue".toList ++ '/' :: rest := rfl
    rw [levels, String.toList_ofList, htext, List.splitOn_append_cons_self_of_not_mem (by decide)]
  refine (topicMatch_iff (by decide) ?_).2 ⟨?_, ?_⟩
  · intro hempty
    have hchars := congrArg String.toList hempty
    simp [queueStart] at hchars
  · simp [isDollar, queueStart]
  · rw [hlevels, show levels "$queue/#" = ["$queue".toList, ['#']] by decide +kernel]
    simp [Topics.matchLevels]

/-- For a prefix that names queues there is a routing key that has no exact permission and is translated to
the address of a queue. -/
lemma exists_key (granted : List PublishPermission) {start : String} (h : NamesQueues start) :
    ∃ key rest, hasPrefix key start = true ∧ (∀ q ∈ granted, q.routingKey ≠ key) ∧
      amqpTopicToMQTT key = String.ofList (queueStart.toList ++ rest) := by
  -- Every long enough key has no exact permission.
  let long := List.replicate (granted.foldr (fun q n => q.routingKey.length + n) 0 + 1) 'm'
  have hfresh (key : String) (hkey : ∃ front, key.toList = front ++ long) : ∀ q ∈ granted, q.routingKey ≠ key := by
    rintro q hq rfl
    obtain ⟨front, hfront⟩ := hkey
    have hle : q.routingKey.length ≤ granted.foldr (fun q n => q.routingKey.length + n) 0 := by
      clear hfront
      clear_value long
      induction granted with
      | nil => cases hq
      | cons head tail ih =>
        rw [List.foldr_cons]
        rcases List.mem_cons.1 hq with rfl | hq
        · omega
        · exact (ih hq).trans (by omega)
    have hlength := congrArg List.length hfront
    simp only [String.length_toList, List.length_append, long, List.length_replicate] at hlength
    omega
  have htranslate (text : List Char) : (amqpTopicToMQTT (String.ofList (start.toList ++ text))).toList =
      (amqpTopicToMQTT start).toList ++ text.map fun c => if c = '.' then '/' else c := by
    simp [amqpTopicToMQTT]
  have hstart (text : List Char) : hasPrefix (String.ofList (start.toList ++ text)) start = true := by
    rw [hasPrefix, String.toList_ofList]
    exact List.isPrefixOf_iff_prefix.2 (List.prefix_append ..)
  have hkept {text : List Char} (hdot : '.' ∉ text) : (text.map fun c => if c = '.' then '/' else c) = text := by
    refine (List.map_congr_left fun c hc => ?_).trans (List.map_id text)
    refine if_neg ?_
    rintro rfl
    exact hdot hc
  have hlong : '.' ∉ long := by simp [long]
  rcases h with ⟨rest, hrest⟩ | ⟨rest, hrest⟩
  · refine ⟨String.ofList (start.toList ++ (rest ++ long)), long, hstart _,
      hfresh _ ⟨start.toList ++ rest, by simp⟩, String.toList_injective ?_⟩
    have hdot : '.' ∉ rest := by
      intro hmem
      have hqueue : '.' ∈ queueStart.toList := hrest ▸ List.mem_append_right _ hmem
      exact absurd hqueue (by decide)
    rw [htranslate, List.map_append, hkept hdot, hkept hlong, ← List.append_assoc, hrest,
      String.toList_ofList]
  · refine ⟨String.ofList (start.toList ++ long), rest ++ long, hstart _, hfresh _ ⟨start.toList, by simp⟩,
      String.toList_injective ?_⟩
    rw [htranslate, hkept hlong, ← hrest, String.toList_ofList, List.append_assoc]

/-- A publication is appended to a stream by an exact grant only, a prefix grant reaches queues by their ordinary
patterns only, and without a grant nothing happens, exactly if no prefix names queues. -/
theorem publish_within_grant_iff (permissions : Option (List PublishPermission)) :
    (∀ (p : Publication) (idx : TopicIndex), ValidPatterns idx →
      (∀ queueName, .append queueName ∈ p.completeLocal permissions →
        queueName = p.routingKey ∧ p.exchangeName = "" ∧ ∃ granted, permissions = some granted ∧
          { routingKey := p.routingKey } ∈ granted) ∧
      (p.canPublishLocal permissions = .grantPrefix → ∀ q ∈ records idx (p.completeLocal permissions),
        ∃ patterns, idx.queues q = some patterns ∧ ∃ pattern ∈ patterns, hasPrefix pattern queueStart = false ∧
          Topics.topicMatch pattern (amqpTopicToMQTT p.routingKey) = true) ∧
      (p.canPublishLocal permissions = .none → p.completeLocal permissions = [])) ↔
    ∀ granted, permissions = some granted → ∀ q ∈ granted, q.routingKeyPrefix ≠ "" →
      ¬ NamesQueues q.routingKeyPrefix := by
  constructor
  · rintro h granted rfl permission hpermission hne hnames
    obtain ⟨key, rest, hstart, hfresh, hkey⟩ := exists_key granted hnames
    let p : Publication := { exchange := "", routingKey := key, authorization := .local .none }
    have hgrant : p.canPublishLocal (some granted) = .grantPrefix := by
      have hexact : (granted.any fun q => q.routingKeyPrefix = "" ∧ q.exchange = "" ∧ q.routingKey = key) = false := by
        simp only [List.any_eq_false, decide_eq_true_eq]
        exact fun q hq hexact => hfresh q hq hexact.2.2
      have hprefix : (granted.any fun q => q.routingKeyPrefix ≠ "" ∧ hasPrefix key q.routingKeyPrefix) = true :=
        List.any_eq_true.2 ⟨permission, hpermission, by simp [hne, hstart]⟩
      have hdefault : p.exchangeName = "" := rfl
      simp only [Publication.canPublishLocal, authorizePublish, hdefault]
      rw [show p.routingKey = key from rfl, hexact, hprefix]
      rfl
    have hmem : "q" ∈ records allAddresses (p.completeLocal (some granted)) := by
      have hfound : "q" ∈ allAddresses.findMatching (amqpTopicToMQTT key) := by
        rw [hkey]
        refine (TopicIndex.mem_findMatching ?_ validPatterns_allAddresses).2
          ⟨_, rfl, _, List.mem_singleton_self _, match_address rest⟩
        intro hempty
        have hchars := congrArg String.toList hempty
        simp [queueStart] at hchars
      rw [Publication.completeLocal, hgrant]
      simpa [Publication.completePublish, Publication.publishToPubSub, Publication.topic,
        Publication.exchangeName, normalizeExchange, records, Effect.records, p] using hfound
    obtain ⟨patterns, hpatterns, pattern, hpattern, hplain, -⟩ :=
      (h p allAddresses validPatterns_allAddresses).2.1 hgrant "q" hmem
    rw [queues_allAddresses hpatterns, List.mem_singleton] at hpattern
    rw [hpattern] at hplain
    exact absurd hplain (by decide)
  · intro hplain p idx hidx
    refine ⟨fun queueName => exact_of_append, fun h q => ordinary_of_prefix hidx hplain h, fun h => ?_⟩
    rw [Publication.completeLocal, h, Publication.completePublish]

/-- A prefix below `$SYS.` names no queue, and one that only begins like `$queue` does. -/
example : ¬ NamesQueues "$SYS." ∧ NamesQueues "$qu" ∧ NamesQueues "$queue.orders." := by decide +kernel

/-- The prefix of a key that is translated to the address of a queue. -/
theorem prefix_names_queue :
    let p : Publication := { exchange := "", routingKey := "$queue.orders.x", authorization := .local .none }
    let permissions := [{ routingKeyPrefix := "$queue." }]
    validPublish permissions = true ∧ p.canPublishLocal (some permissions) = .grantPrefix ∧
      (declared "orders").queues "orders" = some ["$queue/orders/#"] ∧
      records (declared "orders") (p.completeLocal (some permissions)) = ["orders"] := by
  decide +kernel

end FluxMQ.Routing
