import FluxMQ.Mqtt.PersistentSession

/-!
# Conservation of the messages of a persistent session

The broker of `FluxMQ.Mqtt.PersistentSession` moves messages between the containers of a session and
the message store. Seen as `Custody`, where the containers are one row of waiting messages and one
table of messages in flight, moving them is no step at all, as long as the store is read back:

* `ClientState.custody`: what is in custody, wherever it is kept.
* `ClientState.Coherent`: what holds between the containers of reachable states.
* `ClientState.Admissible`: when the broker does what its custody demands.
* `ClientState.refines`: an admissible action is a sequence of steps of `Custody`.

The messages that `handleDisconnect` has moved to the store are out of reach of a client that comes
back to the same broker; the copies it leaves of messages in flight are not removed with them.
-/

namespace FluxMQ.Mqtt.ClientState

open Inflight Custody.Step MessageStore SendWindow List Function Option

variable {cfg : SessionConfig} {s s' : ClientState} {x : PersistentSession Accepted} {m : Accepted}

/-! ### What is in custody -/

/-- The messages to the client in flight. -/
def inflightOf (s : ClientState) : Nat → Option (InflightMessage Accepted) :=
  match s.session with
  | some x => fun packetID => x.inflight.lookup .outbound packetID
  | none => fun packetID => s.store.inflight.lookup (.outbound, packetID)

/-- The messages that wait to be sent. -/
def waiting (s : ClientState) : List Accepted :=
  match s.session with
  | some x => x.pending ++ x.offline
  | none => s.store.listQueue

/-- What is in custody when some messages wait. -/
def custodyWith (s : ClientState) (waiting : List Accepted) : Custody :=
  ⟨s.now, s.inflightOf, waiting, s.count, s.log⟩

/-- What is in custody. -/
def custody (s : ClientState) : Custody := s.custodyWith s.waiting

/-- What holds of a session object, be it attached or not, and what is stored beside it. -/
structure Linked (s : ClientState) (x : PersistentSession Accepted) : Prop where
  recorded : s.recorded = true
  gen : x.connected = true → x.window.gen = x.epoch
  /-- Tokens are held for messages in flight only. -/
  tokens : ∀ i ∈ x.window.held, x.inflight.lookup .outbound i ≠ none
  within : x.window.held.length ≤ x.window.capacity
  online : x.connected = true → x.offline = []
  parted : x.connected = false → x.pending = []
  zero : x.inflight.lookup .outbound 0 = none
  /-- The store has copies of messages in flight only. -/
  queue : s.store.queue = []
  copies : ∀ i, x.inflight.lookup .outbound i = none → s.store.inflight.lookup (.outbound, i) = none
  epochs : ∀ e ∈ s.callbacks, e ≤ x.epoch
  current : x.connected = true → x.epoch ∉ s.callbacks

/-- What holds of the session object in a reachable state. -/
structure Consistent (s : ClientState) (x : PersistentSession Accepted) : Prop extends
    s.Linked x where
  /-- Once `handleDisconnect` has run, the store has all messages in flight. -/
  stored : x.connected = false → x.epoch ∉ s.callbacks →
    ∀ i, s.store.inflight.lookup (.outbound, i) = x.inflight.lookup .outbound i

/-- What holds of reachable states. -/
structure Coherent (s : ClientState) : Prop where
  present : ∀ x, s.session = some x → s.Consistent x
  recorded : s.session = none → s.recorded = true ∨ s.store = {}
  zero : s.session = none → s.store.inflight.lookup (.outbound, 0) = none
  callbacks : s.session = none → s.callbacks = []

/-- The condition on what happens:

* a message is acknowledged that has no copy in the message store, and on the connection it was last
  sent on if others are pending;
* `handleDisconnect` finds nothing queued;
* with no more than ten messages waiting, `Close` comes after `handleDisconnect`, or that still runs
  in time. -/
def Admissible (s : ClientState) : Action → Prop
  | .ack packetID =>
    s.store.inflight.lookup (.outbound, packetID) = none ∧
      ∀ x ∈ s.session, packetID ∈ x.window.held ∨ x.pending = []
  | .handleDisconnect epoch => ∀ x ∈ s.session, x.epoch = epoch → x.offline = []
  | .close inTime => ∀ x ∈ s.session, x.pending.length + x.offline.length ≤ 10 ∧
      (inTime = true ∨ x.connected = false ∧ x.epoch ∉ s.callbacks)
  | _ => True

instance : ∀ a, Decidable (s.Admissible a)
  | .ack _ | .handleDisconnect _ | .close _ => by unfold Admissible; infer_instance
  | .pass _ | .publish _ _ | .pubrec _ | .retry _ | .connect _ | .disconnect => .isTrue trivial

/-! ### Deliveries -/

lemma has_eq_false {μ : Type} {t : Inflight μ} {i : Nat} :
    t.has i = false ↔ t.lookup .outbound i = none := by
  simp [has]

lemma findPacketID_spec {μ : Type} {t : Inflight μ} {tries counter next : Nat}
    (h : t.findPacketID tries counter = some next) :
    next % 2 ^ 16 ≠ 0 ∧ t.lookup .outbound (next % 2 ^ 16) = none := by
  induction tries generalizing counter with
  | zero => simp [findPacketID] at h
  | succ tries ih =>
    unfold findPacketID at h
    split at h
    · rename_i hfree
      obtain rfl := Option.some.inj h
      exact ⟨hfree.1, has_eq_false.1 hfree.2⟩
    · exact ih h

/-- What the delivery of a message does, short of reaching a bound. -/
inductive Delivery (s : ClientState) (x : PersistentSession Accepted) (m : Accepted) :
    ClientState → Prop where
  | expired (h : m.msg.expired s.now = true) : Delivery s x m s
  | offline (hexpired : m.msg.expired s.now = false) (hconn : x.connected = false) :
    Delivery s x m { s with
      session := some { x with offline := x.offline ++ [m] }, log := s.log ++ [.queued m] }
  | sent (hexpired : m.msg.expired s.now = false) (hconn : x.connected = true)
      (counter packetID : Nat) (window : SendWindow) (hid : packetID ≠ 0)
      (hfree : x.inflight.lookup .outbound packetID = none)
      (htoken : x.window.tryAcquire packetID x.epoch = (window, true)) :
    Delivery s x m { s with
      session := some
        { x with
          nextPacketID := counter, window
          inflight := x.inflight.put .outbound packetID { message := m } }
      log := s.log ++ [.published m false] }
  | deferred (hexpired : m.msg.expired s.now = false) (hconn : x.connected = true) (counter : Nat)
      (hbusy : x.window.gen = x.epoch → x.window.capacity ≤ x.window.held.length) :
    Delivery s x m { s with
      session := some { x with nextPacketID := counter, pending := x.pending ++ [m] } }

lemma defer_of_full (h : s.full = true) : (s.defer cfg x m).full = true := by
  unfold defer
  split
  · split <;> simp [h]
  · rfl

lemma defer_of_room (h : (s.defer cfg x m).full = false) :
    s.defer cfg x m = { s with session := some { x with pending := x.pending ++ [m] } } := by
  unfold defer at h ⊢
  split
  · split
    · rfl
    · simp_all
  · simp_all

lemma busy_of_tryAcquire {w w' : SendWindow} {packetID gen : Nat}
    (h : w.tryAcquire packetID gen = (w', false)) (hgen : w.gen = gen) :
    w.capacity ≤ w.held.length := by
  unfold tryAcquire at h
  rw [if_neg (by simp [hgen])] at h
  split at h
  · simp at h
  · split at h
    · assumption
    · simp at h

lemma delivery (hx : s.session = some x) (h : (s.deliver cfg m).full = false) :
    Delivery s x m (s.deliver cfg m) := by
  unfold deliver at h ⊢
  by_cases hexpired : m.msg.expired s.now = true
  · rw [if_pos hexpired]
    exact .expired hexpired
  rw [if_neg hexpired] at h ⊢
  rw [Bool.not_eq_true] at hexpired
  simp only [hx] at h ⊢
  cases hconn : x.connected with
  | false =>
    simp only [hconn, Bool.false_eq_true, if_false] at h ⊢
    unfold enqueueOffline enqueue at h ⊢
    by_cases hfull : cfg.maxOffline ≤ x.offline.length
    · simp [hfull] at h
    · simpa [hfull] using Delivery.offline (m := m) hexpired hconn
  | true =>
    simp only [hconn, if_true] at h ⊢
    unfold deliverQoS at h ⊢
    split at h
    · simp at h
    rename_i counter hcounter
    obtain ⟨hid, hfree⟩ := findPacketID_spec hcounter
    -- The counter is taken whether or not there is a token.
    rcases htoken : x.window.tryAcquire (counter % 2 ^ 16) x.epoch with ⟨window, ok⟩
    cases ok with
    | false =>
      simp only [htoken] at h ⊢
      by_cases hblock : cfg.blocking = true
      · simp [hblock] at h
      · simp only [hblock, Bool.false_eq_true, if_false] at h ⊢
        rw [defer_of_room h]
        exact .deferred hexpired hconn counter (busy_of_tryAcquire htoken)
    | true =>
      simp only [htoken, add] at h ⊢
      by_cases hfull : x.inflight.maxSize ≤ x.inflight.count .outbound
      · simp only [hfree, hfull, and_self, if_true] at h
        exact absurd h (by simp [defer_of_full])
      · simp only [hfull, and_false, if_false]
        exact .sent hexpired hconn counter _ window hid hfree htoken

/-- A token that was not held before was free. -/
lemma tryAcquire_spec {w w' : SendWindow} {packetID gen : Nat}
    (h : w.tryAcquire packetID gen = (w', true)) (hheld : packetID ∉ w.held) :
    w.held.length < w.capacity ∧ w' = { w with held := packetID :: w.held } := by
  by_cases hgen : gen = w.gen <;> by_cases hroom : w.capacity ≤ w.held.length <;>
    simp only [tryAcquire, hgen, hheld, hroom, ne_eq, not_true_eq_false, not_false_eq_true,
      if_true, if_false, Prod.mk.injEq, Bool.false_eq_true, and_false, and_true] at h
  exact ⟨not_le.1 hroom, h.symm⟩

/-- What a delivery leaves of a session object. -/
lemma Delivery.consistent (hd : Delivery s x m s') (hx : s.session = some x)
    (hc : s.Consistent x) : ∃ x', s'.session = some x' ∧ s'.Consistent x' := by
  cases hd with
  | expired h => exact ⟨x, hx, hc⟩
  | offline hexpired hconn =>
    refine ⟨_, rfl, { hc with online := ?_ }⟩
    simp [hconn]
  | sent hexpired hconn counter packetID window hid hfree htoken =>
    have hheld : packetID ∉ x.window.held := fun h => hc.tokens packetID h hfree
    obtain ⟨hroom, rfl⟩ := tryAcquire_spec htoken hheld
    refine ⟨_, rfl,
      { hc with tokens := ?_, within := hroom, zero := ?_, copies := ?_, stored := ?_ }⟩
    · intro i hi
      rw [lookup_put]
      split
      · simp
      rename_i hne
      rcases mem_cons.1 hi with rfl | hi
      · exact absurd ⟨rfl, rfl⟩ hne
      · exact hc.tokens i hi
    · rw [lookup_put, if_neg (fun h => hid h.2.symm)]
      exact hc.zero
    · intro i hi
      rw [lookup_put] at hi
      split at hi
      · simp at hi
      · exact hc.copies i hi
    · simp [hconn]
  | deferred hexpired hconn counter hbusy =>
    refine ⟨_, rfl, { hc with parted := ?_ }⟩
    simp [hconn]

/-! ### Deliveries as steps -/

attribute [simp] custody custodyWith waiting inflightOf

lemma custody_eq (hx : s.session = some x) : s.custody = s.custodyWith (x.pending ++ x.offline) := by
  simp only [custody, waiting, hx]

lemma lookup_put_eq_update {t : Inflight Accepted} {i : Nat} {e : InflightMessage Accepted} :
    (fun j => (t.put .outbound i e).lookup .outbound j) =
      update (fun j => t.lookup .outbound j) i (some e) := by
  funext j
  simp [lookup_put, update_apply]

lemma lookup_erase_eq_update {t : Inflight Accepted} {i : Nat} :
    (fun j => (t.erase .outbound i).lookup .outbound j) =
      update (fun j => t.lookup .outbound j) i none := by
  funext j
  simp [lookup_erase, update_apply]

attribute [simp] lookup_put_eq_update

/-- A new message is delivered. -/
lemma Delivery.steps_publish (hx : s.session = some x) (hc : s.Consistent x)
    (hcount : m.serial = s.count) (hexpired : m.msg.expired s.now = false)
    (hd : Delivery { s with count := s.count + 1, log := s.log ++ [.accepted m] } x m s') :
    Custody.Steps s.custody s'.custody := by
  cases hd with
  | expired h => simp [hexpired] at h
  | offline _ hconn =>
    have harrive := arrive s.custody m hcount
    have hqueue := queue { s.custody with
      waiting := s.custody.waiting ++ [m], count := s.custody.count + 1
      log := s.custody.log ++ [.accepted m] } m (by simp)
    refine .tail (.single harrive) ?_
    simpa [hx] using hqueue
  | sent _ hconn counter packetID window hid hfree htoken =>
    have hadmit := enter s.custody m packetID hcount (by simpa [hx] using hfree)
    refine .single ?_
    simpa [hx] using hadmit
  | deferred _ hconn counter hbusy =>
    have harrive := arrive s.custody m hcount
    refine .single ?_
    simpa [hx, hc.online hconn] using harrive

/-- A message that was the first to wait is delivered when there is a token for it. -/
lemma Delivery.steps_next (hd : Delivery s x m s') (hx : s.session = some x) (hc : s.Consistent x)
    (hconn : x.connected = true) (hroom : x.window.held.length < x.window.capacity) :
    Custody.Steps (s.custodyWith (m :: x.pending)) s'.custody := by
  have hoffline := hc.online hconn
  cases hd with
  | expired h =>
    have hexpire := expire (s.custodyWith (m :: x.pending)) [] m x.pending rfl h
    refine .single ?_
    simpa [hx, hoffline] using hexpire
  | offline _ hconn' => simp [hconn] at hconn'
  | sent _ _ counter packetID window hid hfree htoken =>
    have hsend := send (s.custodyWith (m :: x.pending)) m x.pending packetID rfl
      (by simpa [hx] using hfree)
    refine .single ?_
    simpa [hx, hoffline] using hsend
  | deferred _ _ counter hbusy => exact absurd (hbusy (hc.gen hconn)) (not_le.2 hroom)

/-! ### Bounds that were reached -/

lemma full_deliver (h : s.full = true) : (s.deliver cfg m).full = true := by
  unfold deliver
  split
  · exact h
  split
  · exact h
  split
  · unfold deliverQoS
    split
    · rfl
    dsimp only
    split
    · split
      · rfl
      · exact defer_of_full h
    · split
      · exact defer_of_full rfl
      · exact h
  · simp [enqueueOffline, h]

variable {msgs : List Accepted}

lemma full_deliverAll (h : s.full = true) : (msgs.foldl (deliver cfg) s).full = true := by
  induction msgs generalizing s with
  | nil => exact h
  | cons m msgs ih => exact ih (full_deliver h)

lemma full_drainPendingToOffline (h : s.full = true) :
    (drainPendingToOffline cfg msgs s).full = true := by
  induction msgs generalizing s with
  | nil => exact h
  | cons m msgs ih =>
    refine ih ?_
    split
    · split
      · simp [enqueueOffline, h]
      · exact h
    · exact h

lemma full_deliverOfflineMessages (h : s.full = true) :
    (s.deliverOfflineMessages cfg).full = true := by
  unfold deliverOfflineMessages
  split
  · exact h
  · exact full_deliverAll h

variable {receiveMaximum : Nat}

lemma full_connect (h : s.full = true) : (s.connect cfg receiveMaximum).full = true := by
  have hstart : (if s.session.isSome then s else s.restoreFromStorage cfg).full = true := by
    split
    · exact h
    · simp [restoreFromStorage, h]
  unfold connect
  dsimp only
  split
  · exact hstart
  · exact full_deliverOfflineMessages hstart

lemma full_disconnect (h : s.full = true) : (s.disconnect cfg x).full = true := by
  unfold disconnect
  split
  · exact full_drainPendingToOffline h
  · exact h

lemma full_handleDisconnect {epoch : Nat} : (s.handleDisconnect epoch).full = s.full := by
  unfold handleDisconnect
  split
  · split <;> rfl
  · rfl

lemma full_ackMessage {packetID : Nat} (h : s.full = true) :
    (s.ackMessage cfg x packetID).full = true := by
  unfold ackMessage
  split
  · exact h
  dsimp only
  split
  · exact h
  · exact full_deliver h

lemma full_close {inTime : Bool} (h : s.full = true) : (s.close cfg inTime).full = true := by
  unfold close
  split
  · exact h
  rename_i x _
  have hend : (if x.connected then s.disconnect cfg x else s.persistOfflineQueue x).full = true := by
    split
    · exact full_disconnect h
    · exact h
  dsimp only
  generalize (if x.connected then s.disconnect cfg x else s.persistOfflineQueue x) = s₁ at hend ⊢
  split
  · exact full_handleDisconnect.trans hend
  · exact hend

/-- A bound that was reached stays so. -/
lemma full_step {a : Action} (h : s.full = true) : (s.step cfg a).full = true := by
  have hwhen : ∀ f : ClientState → PersistentSession Accepted → ClientState,
      (∀ x, (f s x).full = true) → (s.whenConnected f).full = true := by
    intro f hf
    unfold whenConnected
    split
    · split
      · exact hf _
      · exact h
    · exact h
  cases a with
  | pass d => exact h
  | publish msg hqos =>
    simp only [step, publish]
    split
    · exact h
    · exact full_deliver h
  | ack packetID => exact hwhen _ fun x => full_ackMessage h
  | pubrec packetID =>
    refine hwhen _ fun x => ?_
    unfold handlePubRec
    split <;> exact h
  | retry packetID =>
    refine hwhen _ fun x => ?_
    unfold retry
    split
    · exact h
    · split <;> exact h
  | connect receiveMaximum => exact full_connect h
  | disconnect => exact hwhen _ fun x => full_disconnect h
  | handleDisconnect epoch =>
    simp only [step]
    split
    · exact full_handleDisconnect.trans h
    · exact h
  | close inTime => exact full_close h

/-! ### Connecting -/

/-- The messages that wait behind the pending ones are delivered, one after another. Once one is
deferred, so are all that follow it. -/
lemma steps_deliverAll (hx : s.session = some x) (hc : s.Consistent x)
    (hconn : x.connected = true) (hbusy : x.pending ≠ [] → x.window.capacity ≤ x.window.held.length)
    (hfull : (msgs.foldl (deliver cfg) s).full = false) :
    ∃ x', (msgs.foldl (deliver cfg) s).session = some x' ∧
      (msgs.foldl (deliver cfg) s).Consistent x' ∧
      Custody.Steps (s.custodyWith (x.pending ++ msgs)) (msgs.foldl (deliver cfg) s).custody := by
  induction msgs generalizing s x with
  | nil =>
    refine ⟨x, hx, hc, ?_⟩
    rw [foldl_nil, custody_eq hx, hc.online hconn]
  | cons m msgs ih =>
    rw [foldl_cons] at hfull ⊢
    have hnotfull : (s.deliver cfg m).full = false := by
      by_contra h
      rw [full_deliverAll (by simpa using h)] at hfull
      exact absurd hfull (by simp)
    have hd := delivery hx hnotfull
    obtain ⟨x', hx', hc'⟩ := hd.consistent hx hc
    generalize s.deliver cfg m = s' at *
    cases hd with
    | expired h =>
      obtain ⟨x'', hx'', hc'', hsteps⟩ := ih hx hc hconn hbusy hfull
      refine ⟨x'', hx'', hc'', .head ?_ hsteps⟩
      exact expire (s.custodyWith (x.pending ++ m :: msgs)) x.pending m msgs rfl h
    | offline _ hconn' => simp [hconn] at hconn'
    | sent _ _ counter packetID window hid hfree htoken =>
      obtain rfl := Option.some.inj hx'
      -- With a token to be had nothing is pending.
      have hpending : x.pending = [] := by
        by_contra hne
        have hheld : packetID ∉ x.window.held := fun h => hc.tokens packetID h hfree
        exact absurd (hbusy hne) (not_le.2 (tryAcquire_spec htoken hheld).1)
      obtain ⟨x'', hx'', hc'', hsteps⟩ := ih rfl hc' hconn (fun hne => absurd hpending hne) hfull
      refine ⟨x'', hx'', hc'', .head ?_ hsteps⟩
      have hsend := send (s.custodyWith (m :: msgs)) m msgs packetID rfl (by simpa [hx] using hfree)
      simpa [hx, hpending] using hsend
    | deferred _ _ counter hbusy' =>
      obtain rfl := Option.some.inj hx'
      obtain ⟨x'', hx'', hc'', hsteps⟩ := ih rfl hc' hconn (fun _ => hbusy' (hc.gen hconn)) hfull
      refine ⟨x'', hx'', hc'', ?_⟩
      simpa [hx] using hsteps

attribute [simp] PersistentSession.attach

lemma Linked.attach (hc : s.Linked x) (capacity : Nat) :
    Consistent { s with session := some { x.attach capacity with offline := [] } }
      { x.attach capacity with offline := [] } where
  __ := hc
  gen := fun _ => rfl
  tokens := by simp
  within := by simp
  online := fun _ => rfl
  parted := by simp
  epochs := fun e he => (hc.epochs e he).trans (Nat.le_succ _)
  current := fun _ hmem => absurd (hc.epochs _ hmem) (Nat.not_succ_le_self _)
  stored := by simp

/-- A session object is given a connection. -/
lemma steps_attach (hx : s.session = some x) (hc : s.Linked x)
    (hfull : ((s.attach cfg x receiveMaximum).deliverOfflineMessages cfg).full = false) :
    ∃ x', ((s.attach cfg x receiveMaximum).deliverOfflineMessages cfg).session = some x' ∧
      ((s.attach cfg x receiveMaximum).deliverOfflineMessages cfg).Consistent x' ∧
      Custody.Steps s.custody ((s.attach cfg x receiveMaximum).deliverOfflineMessages cfg).custody := by
  simp only [attach, deliverOfflineMessages] at hfull ⊢
  generalize sendCapacity cfg receiveMaximum = capacity at hfull ⊢
  have hattached := hc.attach capacity
  cases hconn : x.connected with
  | true =>
    -- The connection is replaced: what is pending stays so, and nothing else waits.
    have hoffline := hc.online hconn
    have hnone : (x.attach capacity).offline = [] := hoffline
    simp only [hnone, foldl_nil] at hfull ⊢
    refine ⟨_, rfl, hattached, ?_⟩
    simpa [hx, hoffline] using Relation.ReflTransGen.refl
  | false =>
    have hpending := hc.parted hconn
    obtain ⟨x', hx', hc', hsteps⟩ := steps_deliverAll rfl hattached rfl (absurd hpending) hfull
    refine ⟨x', hx', hc', ?_⟩
    simpa [hx, hpending] using hsteps

/-- The messages of a session that is not in memory are found again. -/
lemma custody_restoreFromStorage (hs : s.Coherent) (hnone : s.session = none)
    (hfull : (s.restoreFromStorage cfg).full = false) :
    ∃ x, (s.restoreFromStorage cfg).session = some x ∧ (s.restoreFromStorage cfg).Linked x ∧
      (s.restoreFromStorage cfg).custody = s.custody := by
  -- What is not on record was never stored.
  have hstore : (if s.recorded then s.store else {}) = s.store := by
    rcases hs.recorded hnone with h | h <;> simp [h]
  simp only [restoreFromStorage, hstore, Bool.or_eq_false_iff] at hfull ⊢
  obtain ⟨⟨-, hinflight⟩, hqueue⟩ := hfull
  have hlookup := lookup_restoreInflight_listInflight hinflight
  have hoffline := enqueueAll_of_room hqueue
  refine ⟨_, rfl, ⟨rfl, by simp, by simp, by simp, by simp, by simp, ?_, rfl, fun _ _ => rfl, ?_,
    by simp⟩, ?_⟩
  · simpa using hlookup 0
  · simp [hs.callbacks hnone]
  simp only [custody, custodyWith, waiting, inflightOf, hnone, hoffline, nil_append]
  congr 1
  funext i
  rw [hlookup i]
  split
  · rename_i hi
    rw [hi, hs.zero hnone]
  · rfl

/-- A state with a session object. -/
lemma Coherent.of_session (hx : s.session = some x) (hc : s.Consistent x) : s.Coherent :=
  ⟨fun y hy => Option.some.inj (hx.symm.trans hy) ▸ hc, by simp [hx], by simp [hx], by simp [hx]⟩

lemma refines_connect (hs : s.Coherent) (hfull : (s.connect cfg receiveMaximum).full = false) :
    (s.connect cfg receiveMaximum).Coherent ∧
      Custody.Steps s.custody (s.connect cfg receiveMaximum).custody := by
  cases hsession : s.session with
  | some x =>
    simp only [connect, hsession, isSome_some, if_true] at hfull ⊢
    obtain ⟨x', hx', hc', hsteps⟩ := steps_attach hsession (hs.present x hsession).toLinked hfull
    exact ⟨.of_session hx' hc', hsteps⟩
  | none =>
    simp only [connect, hsession, isSome_none, Bool.false_eq_true, if_false] at hfull ⊢
    have hrestored : (s.restoreFromStorage cfg).full = false := by
      by_contra h
      split at hfull
      · exact h hfull
      · rw [full_deliverOfflineMessages (by simpa [attach] using h)] at hfull
        exact absurd hfull (by simp)
    obtain ⟨x, hx, hc, hcustody⟩ := custody_restoreFromStorage hs hsession hrestored
    simp only [hx] at hfull ⊢
    obtain ⟨x', hx', hc', hsteps⟩ := steps_attach hx hc hfull
    exact ⟨.of_session hx' hc', hcustody ▸ hsteps⟩

/-! ### Disconnecting -/

lemma drainPendingToOffline_of_room (hx : s.session = some x)
    (hfull : (drainPendingToOffline cfg msgs s).full = false) :
    drainPendingToOffline cfg msgs s =
      { s with
        session := some { x with offline := x.offline ++ msgs }
        log := s.log ++ msgs.map .queued } := by
  induction msgs generalizing s x with
  | nil => simp [drainPendingToOffline, ← hx]
  | cons m msgs ih =>
    simp only [drainPendingToOffline, hx, m.qos_pos, if_true] at hfull ⊢
    have hroom : (s.enqueueOffline cfg x m).full = false := by
      by_contra h
      rw [full_drainPendingToOffline (by simpa using h)] at hfull
      exact absurd hfull (by simp)
    have hqueued : s.enqueueOffline cfg x m =
        { s with session := some { x with offline := x.offline ++ [m] }, log := s.log ++ [.queued m] } := by
      unfold enqueueOffline enqueue at hroom ⊢
      by_cases hlen : cfg.maxOffline ≤ x.offline.length
      · simp [hlen] at hroom
      · simp [hlen]
    rw [hqueued] at hfull ⊢
    rw [ih rfl hfull]
    simp

/-- The end of a connection, on a session object that has one. -/
lemma disconnect_spec (hc : s.Consistent x) (hconn : x.connected = true)
    (hfull : (s.disconnect cfg x).full = false) :
    s.disconnect cfg x =
      { s with
        session := some { x with connected := false, pending := [], offline := x.pending }
        callbacks := s.callbacks ++ [x.epoch]
        log := s.log ++ x.pending.map .queued } := by
  simp only [disconnect, hconn, if_true] at hfull ⊢
  rw [drainPendingToOffline_of_room rfl hfull, hc.online hconn]
  simp

lemma refines_disconnect (hx : s.session = some x) (hc : s.Consistent x)
    (hconn : x.connected = true) (hfull : (s.disconnect cfg x).full = false) :
    (s.disconnect cfg x).Coherent ∧ Custody.Steps s.custody (s.disconnect cfg x).custody := by
  rw [disconnect_spec hc hconn hfull]
  refine ⟨.of_session rfl { hc with
    gen := by simp, online := by simp, parted := by simp, epochs := ?_, current := by simp
    stored := by simp }, ?_⟩
  · intro e he
    rcases mem_append.1 he with he | he
    · exact hc.epochs e he
    · exact (mem_singleton.1 he).le
  · have hqueue := Custody.steps_queue s.custody x.pending (by simp [hx, hc.online hconn])
    simpa [hx, hc.online hconn] using hqueue

/-- What is stored of a session object and its copies. -/
lemma lookup_persist (hc : s.Linked x) (msgs : List Accepted) (i : Nat) :
    ((s.store.storeQueue msgs).storeInflight x.inflight).inflight.lookup (.outbound, i) =
      x.inflight.lookup .outbound i := by
  rw [lookup_storeInflight, inflight_storeQueue]
  cases hlookup : x.inflight.lookup .outbound i with
  | some e => rfl
  | none => rw [hc.copies i hlookup, none_or]

lemma refines_handleDisconnect {epoch : Nat} (hs : s.Coherent) (hmem : epoch ∈ s.callbacks)
    (hadm : s.Admissible (.handleDisconnect epoch)) :
    Coherent ({ s with callbacks := s.callbacks.erase epoch }.handleDisconnect epoch) ∧
      ({ s with callbacks := s.callbacks.erase epoch }.handleDisconnect epoch).custody = s.custody := by
  cases hsession : s.session with
  | none => simp [hs.callbacks hsession] at hmem
  | some x =>
    have hc := hs.present x hsession
    have hepochs : ∀ e ∈ s.callbacks.erase epoch, e ≤ x.epoch :=
      fun e he => hc.epochs e (mem_of_mem_erase he)
    simp only [handleDisconnect]
    by_cases hepoch : x.epoch = epoch
    · subst hepoch
      -- The session is offline, as its callback was still to run.
      have hconn : x.connected = false := by
        by_contra h
        exact hc.current (by simpa using h) hmem
      have hoffline : x.offline = [] := hadm x (by simp [hsession]) rfl
      simp only [if_true, persistSessionMessages, hoffline, storeQueue_nil]
      have hlookup := lookup_persist hc.toLinked []
      refine ⟨.of_session rfl { hc with
        online := fun _ => rfl, copies := fun i hi => (hlookup i).trans hi, epochs := hepochs
        current := by simp [hconn], stored := fun _ _ => hlookup }, ?_⟩
      simp [hsession, hoffline]
    · simp only [hepoch, if_false]
      have hkept : x.epoch ∈ s.callbacks.erase epoch ↔ x.epoch ∈ s.callbacks :=
        mem_erase_of_ne hepoch
      refine ⟨.of_session rfl { hc with
        epochs := hepochs, current := fun h => hkept.not.2 (hc.current h)
        stored := fun h he => hc.stored h (hkept.not.1 he) }, ?_⟩
      simp [hsession]

/-- What `Close` leaves: the store has everything that was in custody. -/
lemma refines_cleared (store : MessageStore Accepted) (log : List SessionEvent)
    {waiting : List Accepted} {s : ClientState} (hrecorded : s.recorded = true)
    (hzero : x.inflight.lookup .outbound 0 = none)
    (hlookup : ∀ i, store.inflight.lookup (.outbound, i) = x.inflight.lookup .outbound i)
    (hqueue : store.listQueue = waiting) :
    Coherent { s with session := none, callbacks := [], store, log } ∧
      custody { s with session := none, callbacks := [], store, log } =
        ⟨s.now, fun i => x.inflight.lookup .outbound i, waiting, s.count, log⟩ := by
  refine ⟨⟨by simp, fun _ => .inl hrecorded, fun _ => (hlookup 0).trans hzero, fun _ => rfl⟩, ?_⟩
  simp [hqueue, hlookup]

lemma refines_close {inTime : Bool} (hs : s.Coherent) (hadm : s.Admissible (.close inTime))
    (hfull : (s.close cfg inTime).full = false) :
    (s.close cfg inTime).Coherent ∧ Custody.Steps s.custody (s.close cfg inTime).custody := by
  cases hsession : s.session with
  | none =>
    simp only [close, hsession]
    refine ⟨⟨by simp, fun _ => hs.recorded hsession, fun _ => hs.zero hsession, fun _ => rfl⟩, ?_⟩
    simpa [hsession] using Relation.ReflTransGen.refl
  | some x =>
    have hc := hs.present x hsession
    obtain ⟨hlen, htime⟩ := hadm x (by simp [hsession])
    cases hconn : x.connected with
    | true =>
      -- The connection is ended, and `handleDisconnect` stores what its session has.
      have hinTime : inTime = true := by simpa [hconn] using htime
      have hnotfull : (s.disconnect cfg x).full = false := by
        by_contra h
        simp only [close, hsession, hconn, if_true] at hfull
        split at hfull
        · exact h (full_handleDisconnect.symm.trans hfull)
        · exact h hfull
      obtain ⟨-, hsteps⟩ := refines_disconnect hsession hc hconn hnotfull
      have hdisc := disconnect_spec hc hconn hnotfull
      simp only [close, hsession, hconn, if_true, hdisc, hinTime, Bool.true_and, handleDisconnect,
        persistSessionMessages] at hsteps ⊢
      simp only [contains_iff_mem, mem_append, mem_singleton, or_true, if_true] at hsteps ⊢
      have hlisted : (s.store.storeQueue x.pending).listQueue = x.pending :=
        listQueue_storeQueue hc.queue (by omega)
      obtain ⟨hcoherent, hcustody⟩ := refines_cleared _ (s.log ++ x.pending.map .queued)
        hc.recorded hc.zero (lookup_persist hc.toLinked _) hlisted
      refine ⟨hcoherent, ?_⟩
      rw [hcustody]
      simpa [hsession] using hsteps
    | false =>
      have hlisted : (s.store.storeQueue x.offline).listQueue = x.offline :=
        listQueue_storeQueue hc.queue (by omega)
      have hsteps : s.custody =
          ⟨s.now, fun i => x.inflight.lookup .outbound i, x.offline, s.count, s.log⟩ := by
        simp [hsession, hc.parted hconn]
      simp only [close, hsession, hconn, Bool.false_eq_true, if_false, persistOfflineQueue,
        handleDisconnect, persistSessionMessages, if_true, storeQueue_nil, hsteps]
      by_cases hcallback : inTime && s.callbacks.contains x.epoch
      · -- `handleDisconnect` finds the queue empty and stores what is in flight.
        obtain ⟨hcoherent, hcustody⟩ := refines_cleared _ s.log
          hc.recorded hc.zero (lookup_persist hc.toLinked _) hlisted
        rw [if_pos hcallback]
        exact ⟨hcoherent, hcustody ▸ .refl⟩
      -- It has run before, and nothing has happened to what is in flight since.
      have hrun : x.epoch ∉ s.callbacks := by
        rcases htime with h | h
        · simpa [h] using hcallback
        · exact h.2
      obtain ⟨hcoherent, hcustody⟩ := refines_cleared (x := x)
        (s.store.storeQueue x.offline) s.log hc.recorded hc.zero
        (by simpa using hc.stored hconn hrun) hlisted
      rw [if_neg hcallback]
      exact ⟨hcoherent, hcustody ▸ .refl⟩

/-! ### Acknowledgements -/

/-- A token that is returned leaves room for another one. -/
lemma length_release_lt {w : SendWindow} {packetID : Nat} (h : packetID ∈ w.held) :
    (w.release packetID w.gen).held.length < w.held.length := by
  simp only [release, if_true]
  exact length_filter_lt_length_iff_exists.2 ⟨packetID, h, by simp⟩

/-- What is left of a session object when a message is settled. -/
lemma Consistent.settle {packetID : Nat} (hc : s.Consistent x)
    (pending : List Accepted) (log : List SessionEvent) (hconn : x.connected = true)
    (hcopy : s.store.inflight.lookup (.outbound, packetID) = none) :
    Consistent { s with
        session := some { x with
          inflight := x.inflight.erase .outbound packetID
          window := x.window.release packetID x.epoch, pending }
        log }
      { x with
        inflight := x.inflight.erase .outbound packetID
        window := x.window.release packetID x.epoch, pending } := by
  have hgen := hc.gen hconn
  refine { hc with
    gen := ?_, tokens := ?_, within := ?_, zero := ?_, copies := ?_
    parted := by simp [hconn], stored := by simp [hconn] }
  · intro _
    simp [release, hgen]
  · intro i hi
    rw [← hgen, SendWindow.mem_held_release] at hi
    rw [lookup_erase, if_neg (fun h => hi.2 h.2)]
    exact hc.tokens i hi.1
  · simp only [release, hgen]
    exact (length_filter_le _ _).trans hc.within
  · rw [lookup_erase]
    split
    · rfl
    · exact hc.zero
  · intro i hi
    by_cases heq : i = packetID
    · rw [heq]
      exact hcopy
    · rw [lookup_erase, if_neg (fun h => heq h.2)] at hi
      exact hc.copies i hi

section

variable {packetID : Nat} (hx : s.session = some x) (hc : s.Consistent x)
  (hconn : x.connected = true)
include hx hc hconn

lemma refines_ackMessage (hadm : s.Admissible (.ack packetID))
    (hfull : (s.ackMessage cfg x packetID).full = false) :
    (s.ackMessage cfg x packetID).Coherent ∧
      Custody.Steps s.custody (s.ackMessage cfg x packetID).custody := by
  obtain ⟨hcopy, htoken⟩ := hadm
  have hoffline := hc.online hconn
  cases hlookup : x.inflight.lookup .outbound packetID with
  | none =>
    simp only [ackMessage, Inflight.ack, Inflight.ackDirection, hlookup]
    exact ⟨.of_session hx hc, .refl⟩
  | some e =>
    have hack := Custody.Step.ack s.custody packetID e (by simpa [hx] using hlookup)
    simp only [ackMessage, Inflight.ack, Inflight.ackDirection, hlookup] at hfull ⊢
    cases hpending : x.pending with
    | nil =>
      have hsettled := hc.settle x.pending (s.log ++ [.acked e.message]) hconn hcopy
      rw [hpending] at hsettled
      refine ⟨.of_session rfl hsettled, .single ?_⟩
      simpa [hx, hpending, lookup_erase_eq_update] using hack
    | cons next pending =>
      simp only [hpending] at hfull ⊢
      have hsettled := hc.settle pending (s.log ++ [.acked e.message]) hconn hcopy
      -- The message settled was sent on this connection, so its token is free now.
      have hheld : packetID ∈ x.window.held := by simpa [hpending] using htoken x (by simp [hx])
      have hroom : (x.window.release packetID x.epoch).held.length <
          (x.window.release packetID x.epoch).capacity := by
        rw [← hc.gen hconn]
        refine (length_release_lt hheld).trans_le (hc.within.trans (le_of_eq ?_))
        simp [SendWindow.release]
      have hd := delivery rfl hfull
      obtain ⟨x', hx', hc'⟩ := hd.consistent rfl hsettled
      refine ⟨.of_session hx' hc', .head ?_ (hd.steps_next rfl hsettled hconn hroom)⟩
      simpa [hx, hpending, hoffline, lookup_erase_eq_update] using hack

lemma refines_handlePubRec :
    (s.handlePubRec x packetID).Coherent ∧
      Custody.Steps s.custody (s.handlePubRec x packetID).custody := by
  cases hlookup : x.inflight.lookup .outbound packetID with
  | none =>
    simp only [handlePubRec, hlookup]
    exact ⟨.of_session hx hc, .refl⟩
  | some e =>
    have hreceive := receive s.custody packetID e (by simpa [hx] using hlookup)
    -- The entry is written over, so the same identifiers are in flight.
    have hnone : ∀ i, (x.inflight.put .outbound packetID
        { e with state := .pubRecReceived }).lookup .outbound i = none ↔
          x.inflight.lookup .outbound i = none := by
      intro i
      by_cases hi : i = packetID
      · simp [hi, hlookup]
      · simp [hi]
    simp only [handlePubRec, hlookup, updateState]
    refine ⟨.of_session rfl { hc with
      tokens := fun i hi => (hnone i).not.2 (hc.tokens i hi), zero := (hnone 0).2 hc.zero
      copies := fun i hi => hc.copies i ((hnone i).1 hi), stored := by simp [hconn] }, .single ?_⟩
    simpa [hx] using hreceive

lemma refines_retry :
    (s.retry x packetID).Coherent ∧ Custody.Steps s.custody (s.retry x packetID).custody := by
  cases hlookup : x.inflight.lookup .outbound packetID with
  | none =>
    simp only [retry, hlookup]
    exact ⟨.of_session hx hc, .refl⟩
  | some e =>
    rcases htoken : x.window.tryAcquire packetID x.epoch with ⟨window, ok⟩
    cases ok with
    | false =>
      simp only [retry, hlookup, htoken]
      exact ⟨.of_session hx hc, .refl⟩
    | true =>
      have hwindow : window.gen = x.window.gen ∧
          (∀ i ∈ window.held, i = packetID ∨ i ∈ x.window.held) ∧
          window.held.length ≤ window.capacity := by
        by_cases hheld : packetID ∈ x.window.held
        · have hsame : window = x.window := by
            simpa [tryAcquire, hheld, hc.gen hconn] using (congrArg Prod.fst htoken).symm
          exact ⟨by rw [hsame], fun i hi => .inr (hsame ▸ hi), hsame ▸ hc.within⟩
        · obtain ⟨hroom, rfl⟩ := tryAcquire_spec htoken hheld
          exact ⟨rfl, fun i hi => mem_cons.1 hi, hroom⟩
      obtain ⟨hgen, hheld, hwithin⟩ := hwindow
      simp only [retry, hlookup, htoken]
      refine ⟨.of_session rfl { hc with
        gen := fun h => hgen.trans (hc.gen h), tokens := ?_, within := hwithin }, ?_⟩
      · intro i hi
        rcases hheld i hi with rfl | hi
        · simp [hlookup]
        · exact hc.tokens i hi
      by_cases hrel : e.message.msg.qos = 2 ∧ e.state = .pubRecReceived
      · simpa [hx, hrel] using Relation.ReflTransGen.refl
      have hresend := resend s.custody packetID e (by simpa [hx] using hlookup) hrel
      refine .single ?_
      simpa [hx, hrel] using hresend

end

lemma refines_publish {msg : DeliveryMessage} {hqos : 0 < msg.qos} (hs : s.Coherent)
    (hfull : (s.publish cfg msg hqos).full = false) :
    (s.publish cfg msg hqos).Coherent ∧
      Custody.Steps s.custody (s.publish cfg msg hqos).custody := by
  by_cases hdrop : msg.expired s.now ∨ s.session.isNone
  · simp only [publish, if_pos hdrop]
    exact ⟨hs, .refl⟩
  simp only [publish, if_neg hdrop] at hfull ⊢
  rw [not_or, Bool.not_eq_true, isNone_iff_eq_none] at hdrop
  obtain ⟨x, hx⟩ := ne_none_iff_exists'.1 hdrop.2
  have hc := hs.present x hx
  generalize hm : (⟨s.count, msg, hqos⟩ : Accepted) = m at hfull ⊢
  have hcount : m.serial = s.count := hm ▸ rfl
  have hmsg : m.msg = msg := hm ▸ rfl
  have hd := delivery (s := { s with count := s.count + 1, log := s.log ++ [.accepted m] })
    (x := x) hx hfull
  obtain ⟨x', hx', hc'⟩ := hd.consistent hx { hc with }
  exact ⟨.of_session hx' hc', hd.steps_publish hx hc hcount (hmsg ▸ hdrop.1)⟩

/-! ### Every action -/

/-- An action of the broker short of its bounds is a sequence of steps of what it has in custody. -/
theorem refines {a : Action} (hs : s.Coherent) (hadm : s.Admissible a)
    (hfull : (s.step cfg a).full = false) :
    (s.step cfg a).Coherent ∧ Custody.Steps s.custody (s.step cfg a).custody := by
  have hwhen : ∀ f : ClientState → PersistentSession Accepted → ClientState,
      (∀ x, s.session = some x → x.connected = true → (f s x).full = false →
        (f s x).Coherent ∧ Custody.Steps s.custody (f s x).custody) →
      (s.whenConnected f).full = false →
      (s.whenConnected f).Coherent ∧ Custody.Steps s.custody (s.whenConnected f).custody := by
    intro f hf hfull
    unfold whenConnected at hfull ⊢
    split
    · rename_i x hx
      by_cases hconn : x.connected = true
      · simp only [hx, hconn, if_true] at hfull ⊢
        exact hf x hx hconn hfull
      · rw [if_neg hconn]
        exact ⟨hs, .refl⟩
    · exact ⟨hs, .refl⟩
  cases a with
  | pass d =>
    refine ⟨{ hs with present := ?_ }, .single (pass s.custody d)⟩
    intro x hx
    exact { hs.present x hx with }
  | publish msg hqos => exact refines_publish hs hfull
  | ack packetID =>
    exact hwhen _ (fun x hx hconn => refines_ackMessage hx (hs.present x hx) hconn hadm) hfull
  | pubrec packetID =>
    exact hwhen _ (fun x hx hconn _ => refines_handlePubRec hx (hs.present x hx) hconn) hfull
  | retry packetID =>
    exact hwhen _ (fun x hx hconn _ => refines_retry hx (hs.present x hx) hconn) hfull
  | connect receiveMaximum => exact refines_connect hs hfull
  | disconnect =>
    exact hwhen _ (fun x hx hconn => refines_disconnect hx (hs.present x hx) hconn) hfull
  | handleDisconnect epoch =>
    simp only [step]
    split
    · rename_i hmem
      obtain ⟨hcoherent, hcustody⟩ := refines_handleDisconnect hs hmem hadm
      exact ⟨hcoherent, hcustody ▸ .refl⟩
    · exact ⟨hs, .refl⟩
  | close inTime => exact refines_close hs hadm hfull

/-- What holds in every state short of the bounds. -/
structure Sound (s : ClientState) : Prop where
  coherent : s.Coherent
  custody : s.custody.Sound

lemma sound_run {actions : List Action} (h : Transition.Along (step cfg) Admissible {} actions)
    (hfull : (run cfg {} actions).full = false) : (run cfg {} actions).Sound := by
  refine Transition.invariant_run (I := fun s => s.full = false → s.Sound) ?_ ?_ h hfull
  · intro s a hs hadm hfull
    have hbefore : s.full = false := by
      by_contra hne
      rw [full_step (by simpa using hne)] at hfull
      exact absurd hfull (by simp)
    obtain ⟨hcoherent, hsteps⟩ := refines (hs hbefore).coherent hadm hfull
    exact ⟨hcoherent, (hs hbefore).custody.steps hsteps⟩
  · intro _
    exact ⟨⟨by simp, fun _ => .inr rfl, fun _ => rfl, fun _ => rfl⟩, Custody.sound_empty 0⟩

lemma mem_outbound {messages : AList fun _ : Direction × Nat => InflightMessage Accepted}
    {i : Nat} {e : InflightMessage Accepted} (hi : i ≠ 0)
    (h : messages.lookup (.outbound, i) = some e) : e.message ∈ outbound messages := by
  have hmem : ⟨(.outbound, i), e⟩ ∈ messages.entries := AList.mem_lookup_iff.1 h
  refine mem_filterMap.2 ⟨⟨.outbound, i, e⟩, mem_map_of_mem hmem, ?_⟩
  simp [hi]

/-- What is in custody is held by the session. -/
lemma Coherent.holds (hs : s.Coherent) (h : m ∈ s.custody.waiting ∨ s.custody.InFlight m) :
    s.Holds m := by
  cases hsession : s.session with
  | some x =>
    simp only [Holds, hsession]
    rcases h with h | ⟨i, e, he, rfl⟩
    · simp only [custody, custodyWith, waiting, hsession, mem_append] at h
      exact .inr h
    · simp only [custody, custodyWith, inflightOf, hsession] at he
      have hi : i ≠ 0 := fun h0 => by simp [h0, (hs.present x hsession).zero] at he
      exact .inl (mem_outbound hi he)
  | none =>
    simp only [Holds, hsession]
    have hrecorded : s.recorded = true := by
      refine (hs.recorded hsession).resolve_right fun hstore => ?_
      rcases h with h | ⟨i, e, he, -⟩
      · simp [hsession, hstore, listQueue] at h
      · simp [hsession, hstore] at he
    refine ⟨hrecorded, ?_⟩
    rcases h with h | ⟨i, e, he, rfl⟩
    · simp only [custody, custodyWith, waiting, hsession] at h
      exact .inr h
    simp only [custody, custodyWith, inflightOf, hsession] at he
    have hi : i ≠ 0 := by
      rintro rfl
      exact absurd (he.symm.trans (hs.zero hsession)) (by simp)
    exact .inl (mem_outbound hi he)

/-- In every state that admissible actions lead to short of the bounds, no message is missing, none
was sent again once acknowledged, and those that waited were sent in their order. -/
theorem conserved_run (cfg : SessionConfig) (actions : List Action)
    (h : Transition.Along (step cfg) Admissible {} actions)
    (hfull : (run cfg {} actions).full = false) :
    (run cfg {} actions).Conserved ∧ NoneResent (run cfg {} actions).log ∧
      InOrder (run cfg {} actions).log := by
  have hsound := sound_run h hfull
  refine ⟨fun m hm hacked hexpired => ?_, hsound.custody.noneResent, hsound.custody.inOrder⟩
  exact hsound.coherent.holds (hsound.custody.accounted m hm hacked hexpired)

/-- A message with QoS 1. -/
private def reading : DeliveryMessage := { topic := "sensors/temperature" }

private def publishReading : Action := .publish reading (by decide)

private def readingOf (serial : Nat) : Accepted := ⟨serial, reading, by decide⟩

/-- One message is in flight and one waits offline when the broker is closed. The client comes back
to the next one, and acknowledges the second. -/
private def restart : List Action :=
  [.connect 10, publishReading, .disconnect, .handleDisconnect 1, publishReading, .close false,
    .connect 10, .ack 2]

theorem conserved_run_restart :
    (run {} {} restart).Conserved ∧ NoneResent (run {} {} restart).log ∧
      InOrder (run {} {} restart).log :=
  conserved_run {} restart (by decide) (by decide)

/-- A second message is pending when the connection ends. The client comes back to the same
broker. -/
private def comeBack : List Action :=
  [.connect 1, publishReading, publishReading, .disconnect, .handleDisconnect 1, .connect 1]

/-- A message is in flight when the connection ends. The client comes back, is sent it again and
acknowledges it, before the broker is started anew. -/
private def lateAck : List Action :=
  [.connect 1, publishReading, .disconnect, .handleDisconnect 1, .connect 1, .retry 1, .ack 1,
    .disconnect, .handleDisconnect 2, .close true, .connect 1, .retry 1]

/-- Eleven messages wait when the broker is closed. -/
private def eleven : List Action :=
  [.connect 100, .disconnect, .handleDisconnect 1] ++ List.replicate 11 publishReading ++
    [.close true, .connect 100]

/-- Short of all bounds a message is out of reach of the client that comes back for it, one is sent
again after it was acknowledged, and the eleventh to wait is sent before the third. -/
theorem stranded_resent_reordered :
    ((run {} {} comeBack).full = false ∧ ¬ (run {} {} comeBack).Conserved) ∧
      ((run {} {} lateAck).full = false ∧ ¬ NoneResent (run {} {} lateAck).log) ∧
      ((run {} {} eleven).full = false ∧ ¬ InOrder (run {} {} eleven).log) := by
  refine ⟨⟨by decide, fun h => ?_⟩, ⟨by decide, fun h => ?_⟩, ⟨by decide, fun h => ?_⟩⟩
  · exact absurd (h (readingOf 1) (by decide) (by decide) (by decide)) (by decide)
  · exact pairwise_iff_getElem.1 h 3 4 (by decide) (by decide) (by decide) (readingOf 0) true
      (.inl (by decide)) (by decide)
  · have hlt := pairwise_iff_getElem.1 h 24 25 (by decide) (by decide) (by decide)
      (readingOf 10) (readingOf 2) (by decide) (by decide) (by decide) (by decide)
    exact absurd hlt (by decide)

end FluxMQ.Mqtt.ClientState
