import FluxMQ.Mqtt.Inflight
import Mathlib.Data.List.Sort
import Mathlib.Data.String.Basic

/-!
# What a session leaves in the message store

The messages of a session are moved between its two containers in memory, the offline queue and the
tracker of messages in flight, and the message store: `persistOfflineQueue`, `persistSessionMessages`,
`restoreInflightEntry`, `restoreInflightFromStorage` and `restoreQueueFromStorage` of
`mqtt/broker/session.go`, over the store of `storage/badger/message.go`.

All keys of a session begin with its client identifier, so only what comes after it is kept: a queued
message has its index, in decimal, and one in flight its direction and packet identifier. The store
lists what has a common beginning in the order of the bytes of the keys.

* `MessageStore.listQueue_storeQueue`: up to ten queued messages are listed as they were stored.
* `lookup_restoreInflight`: entries that all found room are tracked as they were.
-/

namespace FluxMQ.Mqtt

open Inflight

variable {μ : Type}

/-- A container has taken less than it was given, or has given up something for it. -/
abbrev Full := Bool

/-! ### The containers in memory -/

/-- `Enqueue` of the offline queue. -/
def enqueue (maxSize : Nat) (evictOnFull : Bool) (queue : List μ) (msg : μ) : List μ × Full :=
  if maxSize ≤ queue.length then
    (if evictOnFull then queue.tail ++ [msg] else queue, true)
  else (queue ++ [msg], false)

/-- One message after another is enqueued, whether or not those before it were taken. -/
def enqueueAll (maxSize : Nat) (evictOnFull : Bool) : (queue msgs : List μ) → List μ × Full
  | queue, [] => (queue, false)
  | queue, msg :: msgs =>
    let (queue, full) := enqueue maxSize evictOnFull queue msg
    let (queue, more) := enqueueAll maxSize evictOnFull queue msgs
    (queue, full || more)

lemma enqueueAll_of_room {maxSize : Nat} {evictOnFull : Bool} {queue msgs : List μ}
    (h : (enqueueAll maxSize evictOnFull queue msgs).2 = false) :
    (enqueueAll maxSize evictOnFull queue msgs).1 = queue ++ msgs := by
  induction msgs generalizing queue with
  | nil => simp [enqueueAll]
  | cons msg msgs ih =>
    by_cases hfull : maxSize ≤ queue.length
    · simp [enqueueAll, enqueue, hfull] at h
    · simp only [enqueueAll, enqueue, hfull, if_false, Bool.false_or] at h ⊢
      rw [ih h, List.append_assoc, List.singleton_append]

/-- An entry of the tracker with its key, as it is written out. -/
structure InflightEntry (μ : Type) where
  direction : Direction
  packetID : Nat
  entry : InflightMessage μ

/-- `restoreInflightEntry`. Entries received from the client carry no delivery state. -/
def restoreInflightEntry (tracker : Inflight μ) (e : InflightEntry μ) : Inflight μ × Full :=
  match tracker.add e.direction e.packetID e.entry.message with
  | (_, some _) => (tracker, true)
  | (tracker, none) =>
    match e.direction with
    | .inbound => (tracker, false)
    | .outbound => ((tracker.updateState e.packetID e.entry.state).1, false)

/-- One entry after another is restored. -/
def restoreInflight : (tracker : Inflight μ) → List (InflightEntry μ) → Inflight μ × Full
  | tracker, [] => (tracker, false)
  | tracker, e :: entries =>
    let (tracker, full) := restoreInflightEntry tracker e
    let (tracker, more) := restoreInflight tracker entries
    (tracker, full || more)

variable {tracker : Inflight μ} {entries : List (InflightEntry μ)}

lemma restoreInflight_cons {e : InflightEntry μ}
    :
    restoreInflight tracker (e :: entries) =
      ((restoreInflight (restoreInflightEntry tracker e).1 entries).1,
        (restoreInflightEntry tracker e).2 ||
          (restoreInflight (restoreInflightEntry tracker e).1 entries).2) := rfl

/-- What the tracker holds of an entry that was restored. -/
def InflightEntry.restored (e : InflightEntry μ) : InflightMessage μ :=
  match e.direction with
  | .outbound => e.entry
  | .inbound => { message := e.entry.message }

lemma restoreInflightEntry_of_room {e : InflightEntry μ}
    (h : (restoreInflightEntry tracker e).2 = false) (d : Direction) (i : Nat) :
    (restoreInflightEntry tracker e).1.lookup d i =
      if d = e.direction ∧ i = e.packetID then some e.restored else tracker.lookup d i := by
  obtain ⟨direction, packetID, entry⟩ := e
  have hadd : tracker.add direction packetID entry.message =
      (tracker.put direction packetID { message := entry.message }, none) := by
    unfold add
    split
    · rename_i hfull
      simp [restoreInflightEntry, add, hfull] at h
    · rfl
  cases direction with
  | inbound => simp [restoreInflightEntry, hadd, lookup_put, InflightEntry.restored]
  | outbound =>
    -- The state is written over the entry that `add` has just made.
    simp only [restoreInflightEntry, hadd, updateState, lookup_put, and_self,
      if_true, InflightEntry.restored]
    split <;> simp_all

/-- The key of an entry. -/
def InflightEntry.key (e : InflightEntry μ) : Direction × Nat := (e.direction, e.packetID)

/-- Entries with different keys, in a tracker with room for them, are all found again. -/
theorem lookup_restoreInflight (hkeys : (entries.map InflightEntry.key).Nodup)
    (h : (restoreInflight tracker entries).2 = false) (d : Direction) (i : Nat) :
    (restoreInflight tracker entries).1.lookup d i =
      ((entries.find? fun e => e.key = (d, i)).map InflightEntry.restored).or
        (tracker.lookup d i) := by
  induction entries generalizing tracker with
  | nil => simp [restoreInflight]
  | cons first entries ih =>
    obtain ⟨hfirst, hkeys⟩ := List.nodup_cons.1 hkeys
    rw [restoreInflight_cons] at h ⊢
    obtain ⟨hroom, hrest⟩ := Bool.or_eq_false_iff.1 h
    have hlookup := restoreInflightEntry_of_room hroom d i
    refine (ih hkeys hrest).trans ?_
    by_cases hkey : first.key = (d, i)
    · -- No later entry has the key of the first one.
      have hnone : entries.find? (fun e => e.key = (d, i)) = none := by
        refine List.find?_eq_none.2 fun e he heq => hfirst ?_
        rw [hkey, ← of_decide_eq_true heq]
        exact List.mem_map_of_mem he
      obtain ⟨rfl, rfl⟩ := Prod.mk.inj hkey
      rw [hnone, hlookup, List.find?_cons_of_pos (by simp [InflightEntry.key])]
      simp
    · have hother : ¬ (d = first.direction ∧ i = first.packetID) :=
        fun heq => hkey (by simp [InflightEntry.key, heq.1, heq.2])
      rw [hlookup, if_neg hother, List.find?_cons_of_neg (by simpa using hkey)]

/-! ### The message store -/

/-- The entries of a session in the message store. -/
structure MessageStore (μ : Type) where
  /-- Under `/queue/` and an index. -/
  queue : List (Nat × μ) := []
  /-- Under `/inflight/`, a direction and a packet identifier. -/
  inflight : AList fun _ : Direction × Nat => InflightMessage μ := ∅

/-- The entries of a map of messages in flight. -/
def inflightEntries (messages : AList fun _ : Direction × Nat => InflightMessage μ) :
    List (InflightEntry μ) :=
  messages.entries.map fun e => ⟨e.1.1, e.1.2, e.2⟩

section

variable {messages : AList fun _ : Direction × Nat => InflightMessage μ}

lemma map_key_inflightEntries :
    (inflightEntries messages).map InflightEntry.key = messages.keys := by
  simp [inflightEntries, InflightEntry.key, AList.keys, List.keys]

lemma find_inflightEntries (d : Direction) (i : Nat) :
    (inflightEntries messages).find? (fun e => e.key = (d, i)) =
      (messages.lookup (d, i)).map fun entry => ⟨d, i, entry⟩ := by
  obtain ⟨entries, hnodup⟩ := messages
  simp only [inflightEntries, AList.lookup]
  clear hnodup
  induction entries with
  | nil => simp
  | cons e entries ih =>
    obtain ⟨⟨d', i'⟩, entry⟩ := e
    by_cases hkey : (d', i') = (d, i)
    · obtain ⟨rfl, rfl⟩ := Prod.mk.inj hkey
      simp [InflightEntry.key]
    · rw [List.map_cons, List.find?_cons_of_neg (by simpa [InflightEntry.key] using hkey), ih,
        List.dlookup_cons_ne _ _ (fun heq => hkey heq.symm)]

end

namespace MessageStore

variable (store : MessageStore μ)

/-- `Store` of a queued message. -/
def putQueue (index : Nat) (msg : μ) : MessageStore μ :=
  { store with queue := store.queue.filter (fun e => e.1 ≠ index) ++ [(index, msg)] }

/-- Queued messages are stored under the indexes from `index` on. -/
def storeQueueFrom : (index : Nat) → List μ → MessageStore μ → MessageStore μ
  | _, [], store => store
  | index, msg :: msgs, store => storeQueueFrom (index + 1) msgs (store.putQueue index msg)

/-- `persistOfflineQueue`: the indexes begin with zero, whatever the store has. -/
def storeQueue (msgs : List μ) : MessageStore μ := storeQueueFrom 0 msgs store

/-- The text of an index. -/
def indexText (index : Nat) : List Char := Nat.toDigits 10 index

/-- `List` of the queued messages. -/
def listQueue : List μ :=
  (store.queue.insertionSort fun a b => indexText a.1 ≤ indexText b.1).map Prod.snd

/-- The entries of the tracker are stored, over those that were stored under the same keys. -/
def storeInflight (tracker : Inflight μ) : MessageStore μ :=
  { store with inflight := tracker.messages ∪ store.inflight }

/-- The entries that `restoreInflightFromStorage` does not skip. -/
def listInflight : List (InflightEntry μ) :=
  (inflightEntries store.inflight).filter fun e => e.packetID ≠ 0

/-! ### What is listed -/

variable {store}

@[simp]
lemma inflight_storeQueue {msgs : List μ} : (store.storeQueue msgs).inflight = store.inflight := by
  unfold storeQueue
  generalize 0 = index
  induction msgs generalizing index store with
  | nil => rfl
  | cons msg msgs ih => exact ih (index + 1)

@[simp]
lemma storeQueue_nil : store.storeQueue [] = store := rfl

lemma queue_storeQueueFrom {index : Nat} {msgs : List μ} (h : ∀ e ∈ store.queue, e.1 < index) :
    (storeQueueFrom index msgs store).queue = store.queue ++ (msgs.zipIdx index).map Prod.swap := by
  induction msgs generalizing index store with
  | nil => simp [storeQueueFrom]
  | cons msg msgs ih =>
    have hkeep : store.queue.filter (fun e => e.1 ≠ index) = store.queue :=
      List.filter_eq_self.2 fun e he => by simpa using (h e he).ne
    have hput : (store.putQueue index msg).queue = store.queue ++ [(index, msg)] := by
      rw [putQueue, hkeep]
    rw [storeQueueFrom, ih, hput]
    · simp
    intro e he
    rw [hput] at he
    rcases List.mem_append.1 he with he | he
    · exact (h e he).trans (Nat.lt_succ_self _)
    · rw [List.mem_singleton.1 he]
      exact Nat.lt_succ_self _

/-- Texts of one digit are ordered as the numbers are. -/
lemma indexText_le {i j : Nat} (hij : i ≤ j) (hj : j < 10) : indexText i ≤ indexText j := by
  have h : ∀ j < 10, ∀ i ≤ j, indexText i ≤ indexText j := by decide
  exact h j hj i hij

/-- Up to ten messages in an empty store are listed in the order they were queued in. -/
theorem listQueue_storeQueue {msgs : List μ} (hqueue : store.queue = []) (h : msgs.length ≤ 10) :
    (store.storeQueue msgs).listQueue = msgs := by
  have hstored : (store.storeQueue msgs).queue = msgs.zipIdx.map Prod.swap := by
    unfold storeQueue
    rw [queue_storeQueueFrom (by simp [hqueue]), hqueue, List.nil_append]
  have hsorted : (msgs.zipIdx.map Prod.swap).Pairwise fun a b => indexText a.1 ≤ indexText b.1 := by
    refine List.pairwise_map.2 (List.pairwise_iff_getElem.2 fun i j hi hj hij => ?_)
    simp only [List.length_zipIdx] at hi hj
    simp only [List.getElem_zipIdx, Prod.fst_swap, Nat.zero_add]
    exact indexText_le hij.le (by omega)
  rw [listQueue, hstored, hsorted.insertionSort_eq]
  simp [Function.comp_def]

lemma lookup_storeInflight {d : Direction} {i : Nat} :
    (store.storeInflight tracker).inflight.lookup (d, i) =
      (tracker.lookup d i).or (store.inflight.lookup (d, i)) := by
  unfold storeInflight lookup
  by_cases hmem : (d, i) ∈ tracker.messages
  · obtain ⟨entry, hentry⟩ := Option.isSome_iff_exists.1 (AList.lookup_isSome.2 hmem)
    rw [AList.lookup_union_left hmem, hentry, Option.some_or]
  · rw [AList.lookup_union_right hmem, AList.lookup_eq_none.2 hmem, Option.none_or]

/-- What a tracker with room for everything holds after `restoreInflightFromStorage`. -/
lemma lookup_restoreInflight_listInflight {maxSize : Nat}
    (h : (restoreInflight { maxSize } store.listInflight).2 = false) (i : Nat) :
    (restoreInflight { maxSize } store.listInflight).1.lookup .outbound i =
      if i = 0 then none else store.inflight.lookup (.outbound, i) := by
  have hkeys : (store.listInflight.map InflightEntry.key).Nodup := by
    have hall : ((inflightEntries store.inflight).map InflightEntry.key).Nodup := by
      rw [map_key_inflightEntries]
      exact store.inflight.keys_nodup
    exact hall.sublist (List.filter_sublist.map _)
  have hempty : ({ maxSize } : Inflight μ).lookup .outbound i = none := rfl
  rw [lookup_restoreInflight hkeys h, hempty, Option.or_none]
  by_cases hi : i = 0
  · -- Entries without a packet identifier are skipped.
    have hnone : store.listInflight.find? (fun e => e.key = (.outbound, i)) = none := by
      refine List.find?_eq_none.2 fun e he hkey => ?_
      have hid : e.packetID = i := (Prod.mk.inj (of_decide_eq_true hkey)).2
      exact of_decide_eq_true (List.mem_filter.1 he).2 (hid.trans hi)
    rw [hnone, if_pos hi, Option.map_none]
  have hfind : store.listInflight.find? (fun e => e.key = (.outbound, i)) =
      (inflightEntries store.inflight).find? (fun e => e.key = (.outbound, i)) := by
    rw [listInflight, List.find?_filter]
    congr 1
    funext e
    by_cases hkey : e.key = (.outbound, i)
    · have hid : e.packetID = i := (Prod.mk.inj hkey).2
      simp [hkey, hid, hi]
    · simp [hkey]
  rw [hfind, find_inflightEntries, if_neg hi, Option.map_map]
  cases store.inflight.lookup (.outbound, i) <;> rfl

end MessageStore

end FluxMQ.Mqtt
