import FluxMQ.Library.Keyed
import FluxMQ.Library.Keyspace

/-!
# The keys of clients in the durable stores

The stores under `storage/badger` for sessions, Wills, subscriptions, messages and retained messages share
one database. Their keys are built of the client ID and of separators that may stand in a client ID as
well, and are searched by what they begin with. The message keys are built in `mqtt/broker/session.go`.

* `Key`, `Key.render`: what is stored for whom, and the key that it is stored under.
* `Operation`: what the broker asks the stores on behalf of a client.
* `Belongs`: the keys that are reached on behalf of a client.
* `clients_isolated_iff`: when a client does not reach what is stored for another, and its messages are
  not taken for anything else.
* `isolated_of_clean`: so it is for client IDs that have no slash and no colon.
* `clients_alias`: with a slash or a colon in a client ID it need not be.

What is stored is left abstract, and so is the order in which a search finds it. The time after which the
database drops a session by itself is left out.
-/

namespace FluxMQ.Storage

open Keyspace List

variable {ν : Type}

/-! ### Keys -/

/-- What is stored for whom. -/
inductive Key where
  | session (clientID : String)
  | will (clientID : String)
  | subscription (clientID filter : String)
  /-- The message at a place of the offline queue. -/
  | queued (clientID : String) (i : Nat)
  | inflight (clientID : String) (direction packetID : Nat)
  | retained (topic : String)
  deriving Repr, DecidableEq

/-- `inflightPrefix`. -/
def inflightStart : List Char := "/inflight/".toList

/-- `queuePrefix`. -/
def queueStart : List Char := "/queue/".toList

/-- Where `RemoveAll` and `GetForClient` look for subscriptions. -/
def subscriptionStart (clientID : String) : List Char :=
  "sub:".toList ++ clientID.toList ++ [':']

namespace Key

/-- The key in the database. -/
def render : Key → List Char
  | .session clientID => "session:".toList ++ clientID.toList
  | .will clientID => "will:".toList ++ clientID.toList
  | .subscription clientID filter => subscriptionStart clientID ++ filter.toList
  | .queued clientID i => clientID.toList ++ queueStart ++ i.repr.toList
  | .inflight clientID direction packetID =>
    clientID.toList ++ inflightStart ++ direction.repr.toList ++ '/' :: packetID.repr.toList
  | .retained topic => "retained:".toList ++ topic.toList

/-- The client that something is stored for. -/
def owner : Key → Option String
  | .session clientID | .will clientID | .subscription clientID _ | .queued clientID _
  | .inflight clientID _ _ => some clientID
  | .retained _ => none

/-- It is in the message store. -/
def isMessage : Key → Bool
  | .queued .. | .inflight .. => true
  | _ => false

end Key

/-! ### Operations -/

/-- What the broker asks the stores on behalf of a client. -/
inductive Operation (ν : Type) where
  | saveSession (value : ν)
  | getSession
  | deleteSession
  | setWill (value : ν)
  | getWill
  | deleteWill
  /-- `Add`, `Remove`, `RemoveAll` and `GetForClient` of the subscription store. -/
  | addSubscription (filter : String) (value : ν)
  | removeSubscription (filter : String)
  | removeAllSubscriptions
  | getSubscriptions
  /-- `Store`, `List` and `DeleteByPrefix` of the message store. -/
  | storeQueued (i : Nat) (value : ν)
  | storeInflight (direction packetID : Nat) (value : ν)
  | listQueued
  | listInflight
  | deleteQueued
  | deleteInflight
  /-- `deleteDurableSessionState`, which ends with the first of its steps that fails. -/
  | deleteDurableSessionState (steps : Nat)
  deriving Repr

namespace Operation

/-- The changes that an operation makes. -/
def changes (clientID : String) : Operation ν → List (Change Char ν)
  | .saveSession value => [.put (Key.session clientID).render value]
  | .deleteSession => [.delete (Key.session clientID).render]
  | .setWill value => [.put (Key.will clientID).render value]
  | .deleteWill => [.delete (Key.will clientID).render]
  | .addSubscription filter value => [.put (Key.subscription clientID filter).render value]
  | .removeSubscription filter => [.delete (Key.subscription clientID filter).render]
  | .removeAllSubscriptions => [.deleteAll (subscriptionStart clientID)]
  | .storeQueued i value => [.put (Key.queued clientID i).render value]
  | .storeInflight direction packetID value => [.put (Key.inflight clientID direction packetID).render value]
  | .deleteQueued => [.deleteAll (clientID.toList ++ queueStart)]
  | .deleteInflight => [.deleteAll (clientID.toList ++ inflightStart)]
  | .deleteDurableSessionState steps =>
    [Change.delete (Key.session clientID).render, .deleteAll (subscriptionStart clientID),
      .deleteAll (clientID.toList ++ ['/']), .delete (Key.will clientID).render].take steps
  | .getSession | .getWill | .getSubscriptions | .listQueued | .listInflight => []

/-- What an operation returns, with the keys that it is found under. -/
def answer (clientID : String) (db : Table Char ν) : Operation ν → Table Char ν
  | .getSession => find (Key.session clientID).render db
  | .getWill => find (Key.will clientID).render db
  | .getSubscriptions => scan (subscriptionStart clientID) db
  | .listQueued => scan (clientID.toList ++ queueStart) db
  | .listInflight => scan (clientID.toList ++ inflightStart) db
  | _ => []

end Operation

/-! ### Which keys belong to a client -/

/-- The client ID has no slash and no colon. -/
def Clean (clientID : String) : Prop :=
  '/' ∉ clientID.toList ∧ ':' ∉ clientID.toList

instance (clientID : String) : Decidable (Clean clientID) :=
  inferInstanceAs (Decidable (_ ∧ _))

/-- The key is reached on behalf of the client. -/
def Belongs (clientID : String) (key : List Char) : Prop :=
  key = (Key.session clientID).render ∨ key = (Key.will clientID).render ∨
    subscriptionStart clientID <+: key ∨ clientID.toList ++ ['/'] <+: key

instance (clientID : String) (key : List Char) : Decidable (Belongs clientID key) :=
  inferInstanceAs (Decidable (_ ∨ _))

/-- All that is stored for a client. -/
def storedFor (clientID : String) (db : Table Char ν) : Table Char ν :=
  restrict (fun key => Belongs clientID key) db

/-- The characters that separate nothing. -/
def isPlain (c : Char) : Bool := c ≠ '/' && c ≠ ':'

section

variable {a b clientID : String} {key : List Char}

lemma isPlain_of_clean (h : Clean clientID) : ∀ c ∈ clientID.toList, isPlain c = true := by
  intro c hc
  simp only [isPlain, Bool.and_eq_true, decide_eq_true_eq]
  exact ⟨fun heq => h.1 (heq ▸ hc), fun heq => h.2 (heq ▸ hc)⟩

/-- Everything below a client's own start of message keys belongs to it. -/
lemma belongs_of_slash (rest : List Char) : Belongs clientID (clientID.toList ++ '/' :: rest) :=
  .inr (.inr (.inr ⟨rest, by simp⟩))

lemma queueStart_eq : queueStart = '/' :: "queue/".toList := rfl

lemma inflightStart_eq : inflightStart = '/' :: "inflight/".toList := rfl

lemma subscriptionStart_append (rest : List Char) :
    subscriptionStart clientID ++ rest = "sub".toList ++ ':' :: (clientID.toList ++ ':' :: rest) := by
  simp [subscriptionStart]

/-- The keys of messages have the client ID in front of the first slash of their own. -/
lemma render_message {k : Key} (h : k.owner = some clientID) (hmessage : k.isMessage = true) :
    ∃ rest, k.render = clientID.toList ++ '/' :: rest := by
  cases k with
  | queued id i =>
    obtain rfl : id = clientID := Option.some.inj h
    have hkey : (Key.queued id i).render = id.toList ++ queueStart ++ i.repr.toList := rfl
    exact ⟨"queue/".toList ++ i.repr.toList, by
      rw [hkey, queueStart_eq, append_assoc, cons_append]⟩
  | inflight id direction packetID =>
    obtain rfl : id = clientID := Option.some.inj h
    have hkey : (Key.inflight id direction packetID).render =
      id.toList ++ inflightStart ++ direction.repr.toList ++ '/' :: packetID.repr.toList := rfl
    exact ⟨"inflight/".toList ++ (direction.repr.toList ++ '/' :: packetID.repr.toList), by
      rw [hkey, inflightStart_eq, append_assoc, append_assoc, cons_append]⟩
  | _ => cases hmessage

/-- What is stored for a client belongs to it. -/
lemma belongs_render {k : Key} (h : k.owner = some clientID) : Belongs clientID k.render := by
  cases k with
  | session id => exact .inl (by rw [Option.some.inj h])
  | will id => exact .inr (.inl (by rw [Option.some.inj h]))
  | subscription id filter =>
    rw [← Option.some.inj h]
    exact .inr (.inr (.inl (prefix_append _ _)))
  | queued id i | inflight id direction packetID =>
    obtain ⟨rest, hrest⟩ := render_message h rfl
    exact hrest ▸ belongs_of_slash rest
  | retained topic => cases h

/-- The first part of a key that begins with a word. -/
lemma field_word (word : String) (hword : word.toList.all isPlain = true) (rest : List Char) :
    field isPlain (word.toList ++ ':' :: rest) = (word.toList, ':' :: rest) :=
  field_append_cons (all_eq_true.1 hword) rfl

/-- What a key that belongs to a client with a clean ID is in front of the first separator: the ID itself
with a slash behind it, or one of three words with a colon. -/
lemma field_of_belongs (hid : Clean clientID) (h : Belongs clientID key) :
    (∃ rest, field isPlain key = (clientID.toList, '/' :: rest)) ∨
    field isPlain key = ("session".toList, ':' :: clientID.toList) ∨
    field isPlain key = ("will".toList, ':' :: clientID.toList) ∨
    ∃ rest, field isPlain key = ("sub".toList, ':' :: (clientID.toList ++ ':' :: rest)) := by
  rcases h with rfl | rfl | ⟨rest, rfl⟩ | ⟨rest, rfl⟩
  · exact .inr (.inl (field_word "session" (by decide) _))
  · exact .inr (.inr (.inl (field_word "will" (by decide) _)))
  · refine .inr (.inr (.inr ⟨rest, ?_⟩))
    rw [subscriptionStart_append, field_word "sub" (by decide)]
  · refine .inl ⟨rest, ?_⟩
    rw [append_assoc]
    exact field_append_cons (isPlain_of_clean hid) rfl

/-- No key belongs to two clients with clean IDs. -/
lemma belongs_unique (ha : Clean a) (hb : Clean b) (h : Belongs a key) (h' : Belongs b key) : a = b := by
  apply String.toList_injective
  -- Both descriptions are of one key, so they agree in the separator, the word and what follows.
  rcases field_of_belongs ha h with ⟨rest, hf⟩ | hf | hf | ⟨rest, hf⟩ <;>
    rcases field_of_belongs hb h' with ⟨rest', hf'⟩ | hf' | hf' | ⟨rest', hf'⟩ <;>
    rw [hf] at hf' <;>
    simp only [Prod.mk.injEq, List.cons.injEq, true_and, Char.reduceEq, false_and, and_false] at hf'
  · exact hf'.1
  · exact hf'
  · exact absurd hf'.1 (by decide)
  · exact absurd hf'.1 (by decide)
  · exact absurd hf'.1 (by decide)
  · exact hf'
  · exact absurd hf'.1 (by decide)
  · exact absurd hf'.1 (by decide)
  · exact absurd hf'.1 (by decide)
  · exact (append_cons_inj_of_first ha.2 hb.2 hf').1

/-- A key in the message store of a client with a clean ID is no key of another store. -/
lemma message_ne {k k' : Key} (ha : Clean a) (hk : k.owner = some a) (hmessage : k.isMessage = true)
    (hother : k'.isMessage = false) : k.render ≠ k'.render := by
  obtain ⟨rest, hrest⟩ := render_message hk hmessage
  have hfield : field isPlain k.render = (a.toList, '/' :: rest) := by
    rw [hrest]
    exact field_append_cons (isPlain_of_clean ha) rfl
  -- All the other keys begin with a word and a colon.
  have hfield' : ∃ word rest, field isPlain k'.render = (word, ':' :: rest) := by
    cases k' with
    | session id => exact ⟨_, _, field_word "session" (by decide) _⟩
    | will id => exact ⟨_, _, field_word "will" (by decide) _⟩
    | retained topic => exact ⟨_, _, field_word "retained" (by decide) _⟩
    | subscription id filter =>
      have hkey : (Key.subscription id filter).render =
          "sub".toList ++ ':' :: (id.toList ++ ':' :: filter.toList) := by
        have hstart : (Key.subscription id filter).render = subscriptionStart id ++ filter.toList := rfl
        rw [hstart, subscriptionStart_append]
      exact ⟨_, _, hkey ▸ field_word "sub" (by decide) _⟩
    | _ => cases hother
  obtain ⟨word, rest', hrest'⟩ := hfield'
  intro heq
  rw [heq, hrest'] at hfield
  have hsep := congrArg Prod.snd hfield
  simp at hsep

/-- Below the queue and the inflight messages of a client, keys belong to it. -/
lemma belongs_of_start {start : List Char} {rest : List Char} (hstart : start = '/' :: rest)
    (h : a.toList ++ start <+: key) : Belongs a key := by
  obtain ⟨more, rfl⟩ := h
  rw [hstart, append_assoc, cons_append]
  exact belongs_of_slash _

/-- An operation changes what belongs to its client. -/
lemma belongs_of_touches {op : Operation ν} {c : Change Char ν} (hc : c ∈ op.changes a)
    (h : c.Touches key) : Belongs a key := by
  have hput (k : Key) (hk : k.owner = some a) (value : ν) (hc : c = .put k.render value) :
      Belongs a key := by
    subst hc
    obtain rfl : key = k.render := h
    exact belongs_render hk
  have hdelete (k : Key) (hk : k.owner = some a) (hc : c = .delete k.render) : Belongs a key := by
    subst hc
    obtain rfl : key = k.render := h
    exact belongs_render hk
  have hsubscriptions (hc : c = .deleteAll (subscriptionStart a)) : Belongs a key := by
    subst hc
    exact .inr (.inr (.inl h))
  have hmessages (start rest : List Char) (hstart : start = '/' :: rest)
      (hc : c = .deleteAll (a.toList ++ start)) : Belongs a key := by
    subst hc
    exact belongs_of_start hstart h
  cases op with
  | saveSession value | setWill value => exact hput _ rfl value (mem_singleton.1 hc)
  | deleteSession => exact hdelete (.session a) rfl (mem_singleton.1 hc)
  | deleteWill => exact hdelete (.will a) rfl (mem_singleton.1 hc)
  | addSubscription filter value =>
    exact hput (.subscription a filter) rfl value (mem_singleton.1 hc)
  | removeSubscription filter => exact hdelete (.subscription a filter) rfl (mem_singleton.1 hc)
  | removeAllSubscriptions => exact hsubscriptions (mem_singleton.1 hc)
  | storeQueued i value => exact hput (.queued a i) rfl value (mem_singleton.1 hc)
  | storeInflight direction packetID value =>
    exact hput (.inflight a direction packetID) rfl value (mem_singleton.1 hc)
  | deleteQueued => exact hmessages queueStart _ queueStart_eq (mem_singleton.1 hc)
  | deleteInflight => exact hmessages inflightStart _ inflightStart_eq (mem_singleton.1 hc)
  | deleteDurableSessionState steps =>
    have hmem := mem_of_mem_take hc
    simp only [mem_cons, not_mem_nil, or_false] at hmem
    rcases hmem with hc | hc | hc | hc
    · exact hdelete (.session a) rfl hc
    · exact hsubscriptions hc
    · exact hmessages ['/'] [] rfl hc
    · exact hdelete (.will a) rfl hc
  | _ => cases hc

/-- An operation returns what belongs to its client. -/
lemma belongs_of_answer {op : Operation ν} {db : Table Char ν} {entry : List Char × ν}
    (h : entry ∈ op.answer a db) : entry ∈ db ∧ Belongs a entry.1 := by
  have hfind (k : Key) (hk : k.owner = some a) (h : entry ∈ find k.render db) :
      entry ∈ db ∧ Belongs a entry.1 := by
    obtain ⟨hmem, hkey⟩ := key_of_mem_find h
    exact ⟨hmem, hkey ▸ belongs_render hk⟩
  have hscan (start : List Char) (hstart : start <+: entry.1 → Belongs a entry.1)
      (h : entry ∈ scan start db) : entry ∈ db ∧ Belongs a entry.1 := by
    obtain ⟨hmem, hkey⟩ := prefix_of_mem_scan h
    exact ⟨hmem, hstart hkey⟩
  cases op with
  | getSession => exact hfind (.session a) rfl h
  | getWill => exact hfind (.will a) rfl h
  | getSubscriptions => exact hscan _ (fun hkey => .inr (.inr (.inl hkey))) h
  | listQueued => exact hscan _ (belongs_of_start queueStart_eq) h
  | listInflight => exact hscan _ (belongs_of_start inflightStart_eq) h
  | _ => cases h

/-- An operation on behalf of one client leaves what is stored for another as it is. -/
lemma storedFor_perform (op : Operation ν) (db : Table Char ν) (hne : a ≠ b) (ha : Clean a)
    (hb : Clean b) : storedFor b (perform db (op.changes a)) = storedFor b db := by
  refine restrict_perform fun c hc key hkey htouches => ?_
  exact hne (belongs_unique ha hb (belongs_of_touches hc htouches) (of_decide_eq_true hkey))

/-- All that belongs to a client goes when its state is deleted. -/
lemma find_deleted {db : Table Char ν} (h : Belongs a key) :
    find key (perform db ((Operation.deleteDurableSessionState 4).changes a)) = [] := by
  refine filter_eq_nil_iff.2 fun entry hentry heq => ?_
  have heq : entry.1 = key := by simpa using heq
  rcases entry with ⟨key', value⟩
  obtain rfl : key' = key := heq
  simp only [Operation.changes, take_succ_cons, take_zero, perform, foldl_cons, foldl_nil, Change.apply,
    mem_restrict] at hentry
  obtain ⟨⟨⟨⟨-, hsession⟩, hsub⟩, hmessage⟩, hwill⟩ := hentry
  rcases h with h | h | h | h
  · exact absurd h (of_decide_eq_true hsession)
  · exact absurd h (of_decide_eq_true hwill)
  · rw [ isPrefixOf_iff_prefix.2 h] at hsub
    cases hsub
  · rw [ isPrefixOf_iff_prefix.2 h] at hmessage
    cases hmessage

/-! ### Message keys that begin like the keys of another store -/

/-- The client ID begins like a key of another store. -/
def BeginsAsStore (clientID : String) : Prop :=
  "session:".toList <+: clientID.toList ∨ "will:".toList <+: clientID.toList ∨
    "retained:".toList <+: clientID.toList ∨ ∃ id, subscriptionStart id <+: clientID.toList

lemma not_mem_repr {c : Char} (hc : c.isDigit = false) (n : Nat) : c ∉ n.repr.toList := by
  intro hmem
  rw [Nat.repr, String.toList_ofList] at hmem
  rw [Nat.isDigit_of_mem_toDigits (by decide) (by decide) hmem] at hc
  cases hc

/-- Behind the client ID a message key has no colon. -/
lemma message_tail {k : Key} (h : k.owner = some clientID) (hmessage : k.isMessage = true) :
    ∃ rest, k.render = clientID.toList ++ rest ∧ ':' ∉ rest := by
  have hdigits := not_mem_repr (c := ':') rfl
  cases k with
  | queued id i =>
    obtain rfl : id = clientID := Option.some.inj h
    refine ⟨queueStart ++ i.repr.toList, append_assoc .., ?_⟩
    rw [mem_append, not_or]
    exact ⟨by decide, hdigits i⟩
  | inflight id direction packetID =>
    obtain rfl : id = clientID := Option.some.inj h
    refine ⟨inflightStart ++ (direction.repr.toList ++ '/' :: packetID.repr.toList), ?_, ?_⟩
    · show id.toList ++ inflightStart ++ direction.repr.toList ++ '/' :: packetID.repr.toList = _
      rw [append_assoc, append_assoc]
    · rw [mem_append, mem_append, mem_cons, not_or, not_or, not_or]
      exact ⟨by decide, hdigits direction, by decide, hdigits packetID⟩
  | _ => cases hmessage

/-- What ends with a colon and begins a text is in front of what has no colon. -/
lemma prefix_of_colon {start text rest : List Char} (h : start ++ [':'] <+: text ++ rest)
    (hrest : ':' ∉ rest) : start ++ [':'] <+: text := by
  rcases prefix_or_prefix_of_prefix h (prefix_append text rest) with hprefix | ⟨more, hmore⟩
  · exact hprefix
  rw [← hmore] at h ⊢
  rcases eq_nil_or_concat more with rfl | ⟨init, last, rfl⟩
  · exact ⟨[], by simp⟩
  -- The colon would stand in the rest.
  rw [concat_eq_append] at h hmore
  rw [← append_assoc] at hmore
  have hlast : last = ':' := (cons.inj (append_inj_right' hmore rfl)).1
  exact absurd (((prefix_append_right_inj text).1 h).subset (by simp [hlast])) hrest

/-- A message of a client is under the key of another store exactly if its ID begins like one. -/
lemma exists_message_eq_iff :
    (∃ k k' : Key, k.owner = some a ∧ k.isMessage = true ∧ k'.isMessage = false ∧
      k.render = k'.render) ↔ BeginsAsStore a := by
  constructor
  · rintro ⟨k, k', hk, hmessage, hother, heq⟩
    obtain ⟨rest, hrender, hcolon⟩ := message_tail hk hmessage
    have hstart (start : List Char) (h : start ++ [':'] <+: k'.render) : start ++ [':'] <+: a.toList :=
      prefix_of_colon (hrender ▸ heq ▸ h) hcolon
    cases k' with
    | session id => exact .inl (hstart "session".toList (prefix_append _ _))
    | will id => exact .inr (.inl (hstart "will".toList (prefix_append _ _)))
    | retained topic => exact .inr (.inr (.inl (hstart "retained".toList (prefix_append _ _))))
    | subscription id filter =>
      exact .inr (.inr (.inr ⟨id, hstart ("sub:".toList ++ id.toList) (prefix_append _ _)⟩))
    | _ => cases hother
  · have hqueued (k' : String → Key) (start rest : List Char) (hstart : start ++ rest = a.toList)
        (hk' : ∀ id, (k' id).render = start ++ id.toList) (i : Nat) :
        (Key.queued a i).render = (k' (.ofList (rest ++ queueStart ++ i.repr.toList))).render := by
      have hkey : (Key.queued a i).render = a.toList ++ queueStart ++ i.repr.toList := rfl
      rw [hk', String.toList_ofList, hkey, ← hstart, append_assoc, append_assoc, append_assoc]
    rintro (⟨rest, h⟩ | ⟨rest, h⟩ | ⟨rest, h⟩ | ⟨id, rest, h⟩)
    · exact ⟨_, _, rfl, rfl, rfl, hqueued .session _ _ h (fun _ => rfl) 0⟩
    · exact ⟨_, _, rfl, rfl, rfl, hqueued .will _ _ h (fun _ => rfl) 0⟩
    · exact ⟨_, _, rfl, rfl, rfl, hqueued .retained _ _ h (fun _ => rfl) 0⟩
    · exact ⟨_, _, rfl, rfl, rfl, hqueued (.subscription id) _ _ h (fun _ => rfl) 0⟩

end

/-! ### Isolation -/

/-- An operation on behalf of one client leaves all that is stored for another as it is and returns none
of it, and no message of the client is under a key of another store, exactly if nothing of the other
client is under a key that belongs to it and its ID does not begin like a key of another store. -/
theorem clients_isolated_iff [Inhabited ν] (a b : String) :
    ((∀ (db : Table Char ν) (op : Operation ν) (k : Key), k.owner = some b →
        find k.render (perform db (op.changes a)) = find k.render db ∧
        ∀ entry ∈ op.answer a db, entry.1 ≠ k.render) ∧
      ∀ k k' : Key, k.owner = some a → k.isMessage = true → k'.isMessage = false →
        k.render ≠ k'.render) ↔
    (∀ k : Key, k.owner = some b → ¬ Belongs a k.render) ∧ ¬ BeginsAsStore a := by
  refine and_congr ⟨fun h k hk hbelongs => ?_, fun h db op k hk => ⟨?_, ?_⟩⟩ ?_
  · -- Deleting the state of the client deletes what is stored for the other one.
    have hfind := (h [(k.render, default)] (.deleteDurableSessionState 4) k hk).1
    rw [find_deleted hbelongs] at hfind
    simp [find, restrict] at hfind
  · refine restrict_perform fun c hc key hkey htouches => h k hk ?_
    rw [← show key = k.render by simpa using hkey]
    exact belongs_of_touches hc htouches
  · rintro entry hentry heq
    exact h k hk (heq ▸ (belongs_of_answer hentry).2)
  · rw [← exists_message_eq_iff]
    constructor
    · rintro h ⟨k, k', hk, hmessage, hother, heq⟩
      exact h k k' hk hmessage hother heq
    · intro h k k' hk hmessage hother heq
      exact h ⟨k, k', hk, hmessage, hother, heq⟩

/-- Clients with IDs that have no slash and no colon are isolated. -/
theorem isolated_of_clean {a b : String} (hne : a ≠ b) (ha : Clean a) (hb : Clean b) :
    (∀ k : Key, k.owner = some b → ¬ Belongs a k.render) ∧ ¬ BeginsAsStore a := by
  refine ⟨fun k hk hbelongs => hne (belongs_unique ha hb hbelongs (belongs_render hk)), fun h => ?_⟩
  obtain ⟨k, k', hk, hmessage, hother, heq⟩ := exists_message_eq_iff.2 h
  exact message_ne ha hk hmessage hother heq

/-- The state of `a` is deleted, and with it the message queued for `a/b` and the subscription of `a:b`;
`a` is given the message of `a/queue`; and a message queued for `retained:t` is under the key of a
retained message. -/
theorem clients_alias :
    perform [((Key.queued "a/b" 0).render, 7)] ((Operation.deleteDurableSessionState 4).changes "a") = [] ∧
    perform [((Key.subscription "a:b" "f").render, 7)] (Operation.removeAllSubscriptions.changes "a") =
      [] ∧
    Operation.listQueued.answer "a" [((Key.queued "a/queue" 0).render, 7)] =
      [((Key.queued "a/queue" 0).render, 7)] ∧
    (Key.queued "retained:t" 0).render = (Key.retained "t/queue/0").render := by
  decide +kernel

end FluxMQ.Storage
