import FluxMQ.Mqtt.Acknowledge
import FluxMQ.Mqtt.Distribute

/-!
# QoS 2 from a client

`HandlePublish` and `HandlePubRel` of `mqtt/broker/v3_handler.go` and `v5_handler.go` for a message
with QoS 2, with `completeInboundQoS2` of `mqtt/broker/qos2.go`.

A publication is begun by a PUBLISH that the tracker accepts and ends when its PUBCOMP is sent; until
then its packet identifier stands for it, whatever else is sent under it. Publications are numbered for
the statements only.

* `InboundSession.step`: a packet of the client, the end of a connection, a new one, and a turn of the
  fan-out pool.
* `InboundSession.ServesOnce`, `InboundSession.Distributes`: the steps that are known to do right.
* `InboundSession.exactly_once`: what holds in every run of them.
-/

namespace FluxMQ.Mqtt

open Function Inflight List

/-- A message of the client and the number of its publication. -/
structure Publication where
  number : Nat
  msg : Envelope
  deriving Repr, DecidableEq

/-- How the broker is configured. -/
structure InboundConfig where
  version : Version
  asyncFanOut : Bool := false
  /-- `routeResolver`. -/
  resolve : String → RouteKind := fun _ => .pubSub

/-- What the checks of `HandlePublish` decide about a packet, before its QoS matters. -/
inductive Verdict where
  | accept
  | refuse (reasonCode : Nat)
  | disconnect
  deriving Repr, DecidableEq

/-- A packet to the client. -/
inductive InboundReply where
  | pubrec (packetID reasonCode : Nat)
  /-- The PUBCOMP of MQTT 3 has no reason code. -/
  | pubcomp (packetID : Nat) (reasonCode : Option Nat)
  deriving Repr, DecidableEq

/-- The session of a client, as far as the messages with QoS 2 that it sends go. -/
structure InboundSession where
  connected : Bool := true
  inflight : Inflight Publication := {}
  /-- The tasks of the fan-out pool. -/
  fanOutPool : List Publication := []
  sent : List InboundReply := []
  /-- The publication that a packet identifier stands for. -/
  opened : Nat → Option Nat := fun _ => none
  /-- How many publications there have been. -/
  begun : Nat := 0
  /-- Which session was handed which publication. -/
  handed : List (Nat × String) := []
  /-- The publications that nobody has missed, and those that a PUBCOMP with success was sent for. -/
  distributed : List Nat := []
  completed : List Nat := []

namespace InboundSession

variable (cfg : InboundConfig) (s : InboundSession)

/-- `Publish` of a publication. -/
def publish (env : Surroundings) (p : Publication) : InboundSession × Option PublishError :=
  let (f, err) := env.publish p.msg (cfg.resolve p.msg.topic)
  ({ s with
      handed := s.handed ++ f.clients.map fun c => (p.number, c)
      distributed := if err = none ∧ f.missed = false then p.number :: s.distributed
        else s.distributed }, err)

/-- `AckInbound` of an entry that is there. -/
def ackInbound (packetID : Nat) : InboundSession :=
  { s with inflight := (s.inflight.ackInbound packetID).1 }

/-- `completeInboundQoS2`, with whether the pool takes a task: whether the packet identifier was
known, and the error. -/
def completeInboundQoS2 (env : Surroundings) (submit : Bool) (packetID : Nat) :
    InboundSession × Bool × Option PublishError :=
  match s.inflight.lookup .inbound packetID with
  | none => (s, false, none)
  | some e =>
    if cfg.asyncFanOut ∧ cfg.resolve e.message.msg.topic = .pubSub then
      let s := s.ackInbound packetID
      if submit then ({ s with fanOutPool := s.fanOutPool ++ [e.message] }, true, none)
      -- `publishOwnedInbound` only logs an error.
      else ((s.publish cfg env e.message).1, true, none)
    else
      match s.publish cfg env e.message with
      | (s, some err) => (s, true, some err)
      | (s, none) => (s.ackInbound packetID, true, none)

/-- `PubCompPacketIdentifierNotFound`. -/
def packetIdentifierNotFound : Nat := 0x92

/-- The reason code of a PUBCOMP. -/
def compReason (found : Bool) : Option Nat :=
  match cfg.version with
  | .v3 => none
  | .v5 => some (if found then 0 else packetIdentifierNotFound)

/-- PUBCOMP is written: the publication ends. -/
def writePubComp (packetID : Nat) (reason : Option Nat) : InboundSession :=
  { s with
    sent := s.sent ++ [.pubcomp packetID reason]
    completed :=
      match s.opened packetID with
      | some p => if reason = none ∨ reason = some 0 then p :: s.completed else s.completed
      | none => s.completed
    opened := Function.update s.opened packetID none }

/-- `HandlePubRel`. An error ends the connection. -/
def handlePubRel (env : Surroundings) (submit : Bool) (packetID : Nat) : InboundSession :=
  match s.completeInboundQoS2 cfg env submit packetID with
  | (s, _, some _) => { s with connected := false }
  | (s, found, none) => s.writePubComp packetID (compReason cfg found)

/-- A publication that the tracker accepts. -/
def begin (packetID : Nat) (inflight : Nat → Inflight Publication) : InboundSession :=
  match s.opened packetID with
  | some p => { s with inflight := inflight p }
  | none =>
    { s with
      inflight := inflight s.begun
      opened := Function.update s.opened packetID (some s.begun)
      begun := s.begun + 1 }

/-- `HandlePublish` of a packet with QoS 2. -/
def handlePublish (verdict : Verdict) (packetID : Nat) (msg : Envelope) : InboundSession :=
  match verdict with
  | .refuse reasonCode => { s with sent := s.sent ++ [.pubrec packetID reasonCode] }
  | .disconnect => { s with connected := false }
  | .accept =>
    -- The number of the publication has no part in whether the tracker accepts it.
    let add (number : Nat) := s.inflight.addInbound packetID ⟨number, { msg with qos := 2 }⟩
    match (add 0).2 with
    | (_, some _) => { s with connected := false }
    | (false, none) => { s with sent := s.sent ++ [.pubrec packetID 0] }
    | (true, none) =>
      let s := s.begin packetID fun number => (add number).1
      { s with sent := s.sent ++ [.pubrec packetID 0] }

/-- Something that happens to a session. -/
inductive Event where
  | publish (verdict : Verdict) (packetID : Nat) (msg : Envelope)
  | pubrel (packetID : Nat) (env : Surroundings) (submit : Bool)
  | disconnect
  /-- The client comes back to its session, or to a new one. -/
  | reconnect (resumes : Bool)
  /-- The pool performs a task. -/
  | work (env : Surroundings)

/-- What a session makes of an event. -/
def step (cfg : InboundConfig) (s : InboundSession) : Event → InboundSession
  | .publish verdict packetID msg =>
    if s.connected then s.handlePublish verdict packetID msg else s
  | .pubrel packetID env submit =>
    if s.connected then s.handlePubRel cfg env submit packetID else s
  | .disconnect => { s with connected := false }
  | .reconnect true => { s with connected := true }
  | .reconnect false =>
    { s with connected := true, inflight := { maxSize := s.inflight.maxSize } }
  | .work env =>
    match s.fanOutPool with
    | [] => s
    | p :: fanOutPool => ({ s with fanOutPool }.publish cfg env p).1

/-- The session after a sequence of events. -/
abbrev run (cfg : InboundConfig) (s : InboundSession) (events : List Event) : InboundSession :=
  Transition.run (step cfg) s events

/-! ### Conditions -/

/-- The publication is left to the fan-out pool. -/
def FansOut (p : Publication) : Prop :=
  cfg.asyncFanOut = true ∧ cfg.resolve p.msg.topic = .pubSub

/-- The subscriptions name no session twice, and the other nodes can be reached if there is anybody
here to be served before them. -/
def ServesOnce : Event → Prop
  | .pubrel packetID env _ => ∀ e, s.inflight.lookup .inbound packetID = some e →
    env.addressees.Nodup ∧ (¬ FansOut cfg e.message → env.cluster = true → env.routePublish = false →
      env.addressees = [])
  | .work env => env.addressees.Nodup
  | _ => True

/-- The sessions take what they are given while the client waits for it. A client of MQTT 3, which
cannot be told that its publication is not known any more, finds it known. -/
def Distributes : Event → Prop
  | .pubrel packetID env _ => ∀ e, s.inflight.lookup .inbound packetID = some e →
    ¬ FansOut cfg e.message ∧ ∀ n, env.takes n = true
  | .reconnect false => cfg.version = .v5 ∨ ∀ i, s.opened i = none
  | _ => True

end InboundSession

/-! ### Publications are handed over once -/

/-- The books of a session: a publication that is still open, or that waits in the pool, has been
handed to nobody. -/
structure InboundBooks (opened : Nat → Option Nat) (begun : Nat) (pool : List Nat)
    (handed : List (Nat × String)) (entries : Nat → Option Nat) : Prop where
  open_lt : ∀ {i p}, opened i = some p → p < begun
  open_fresh : ∀ {i p}, opened i = some p → ∀ c, (p, c) ∉ handed
  open_inj : ∀ {i j p}, opened i = some p → opened j = some p → i = j
  open_pool : ∀ {i p}, opened i = some p → p ∉ pool
  pool_lt : ∀ {p}, p ∈ pool → p < begun
  pool_fresh : ∀ {p}, p ∈ pool → ∀ c, (p, c) ∉ handed
  pool_nodup : pool.Nodup
  handed_lt : ∀ {p c}, (p, c) ∈ handed → p < begun
  entry : ∀ {i p}, entries i = some p → opened i = some p
  once : handed.Nodup

namespace InboundBooks

variable {opened entries : Nat → Option Nat} {begun : Nat} {pool : List Nat}
  {handed : List (Nat × String)} {i p : Nat}

lemma update_none_eq_some {f : Nat → Option Nat} {j q : Nat} :
    update f i none j = some q ↔ j ≠ i ∧ f j = some q := by
  rw [update_apply]
  split <;> simp_all

lemma update_some_eq_some {f : Nat → Option Nat} {j q : Nat} :
    update f i (some p) j = some q ↔ (j = i ∧ p = q) ∨ (j ≠ i ∧ f j = some q) := by
  rw [update_apply]
  split <;> simp_all

section

variable (h : InboundBooks opened begun pool handed entries)
include h

lemma close (i : Nat) :
    InboundBooks (update opened i none) begun pool handed (update entries i none) where
  open_lt hp := h.open_lt (update_none_eq_some.mp hp).2
  open_fresh hp := h.open_fresh (update_none_eq_some.mp hp).2
  open_inj hp hq := h.open_inj (update_none_eq_some.mp hp).2 (update_none_eq_some.mp hq).2
  open_pool hp := h.open_pool (update_none_eq_some.mp hp).2
  __ := h
  entry he :=
    have ⟨hne, he⟩ := update_none_eq_some.mp he
    update_none_eq_some.mpr ⟨hne, h.entry he⟩

lemma begin (i : Nat) :
    InboundBooks (update opened i (some begun)) (begun + 1) pool handed
      (update entries i (some begun)) where
  open_lt hp := by
    obtain ⟨-, rfl⟩ | ⟨-, hp⟩ := update_some_eq_some.mp hp
    · exact Nat.lt_succ_self _
    · exact Nat.lt_succ_of_lt (h.open_lt hp)
  open_fresh hp c hc := by
    obtain ⟨-, rfl⟩ | ⟨-, hp⟩ := update_some_eq_some.mp hp
    · exact absurd (h.handed_lt hc) (Nat.lt_irrefl _)
    · exact h.open_fresh hp c hc
  open_inj hp hq := by
    obtain ⟨hi, hbegun⟩ | ⟨-, hold⟩ := update_some_eq_some.mp hp <;>
      obtain ⟨hj, hbegun'⟩ | ⟨-, hold'⟩ := update_some_eq_some.mp hq
    · exact hi.trans hj.symm
    · exact absurd (h.open_lt hold') (hbegun ▸ Nat.lt_irrefl _)
    · exact absurd (h.open_lt hold) (hbegun' ▸ Nat.lt_irrefl _)
    · exact h.open_inj hold hold'
  open_pool hp hmem := by
    obtain ⟨-, rfl⟩ | ⟨-, hp⟩ := update_some_eq_some.mp hp
    · exact absurd (h.pool_lt hmem) (Nat.lt_irrefl _)
    · exact h.open_pool hp hmem
  pool_lt hp := Nat.lt_succ_of_lt (h.pool_lt hp)
  __ := h
  handed_lt hc := Nat.lt_succ_of_lt (h.handed_lt hc)
  entry he := by
    obtain ⟨rfl, rfl⟩ | ⟨hne, he⟩ := update_some_eq_some.mp he
    · exact update_some_eq_some.mpr (.inl ⟨rfl, rfl⟩)
    · exact update_some_eq_some.mpr (.inr ⟨hne, h.entry he⟩)

/-- The tracker may change as it likes, if its entries stay with what is open. -/
lemma track {entries' : Nat → Option Nat}
    (hentry : ∀ {i p}, entries' i = some p → opened i = some p) :
    InboundBooks opened begun pool handed entries' where
  __ := h
  entry := hentry

/-- A publication that is neither open nor in the pool may be handed over. -/
lemma hand (hlt : p < begun) (hfresh : ∀ c, (p, c) ∉ handed) (hopen : ∀ i, opened i ≠ some p)
    (hpool : p ∉ pool) {clients : List String} (hclients : clients.Nodup) :
    InboundBooks opened begun pool (handed ++ clients.map fun c => (p, c)) entries := by
  have hother {q : Nat} (hq : q ≠ p) (c : String) (hold : (q, c) ∉ handed) :
      (q, c) ∉ handed ++ clients.map fun c => (p, c) := by
    simp [hold, Ne.symm hq]
  refine { h with
    open_fresh := fun {i q} hq c => ?_, pool_fresh := fun {q} hq c => ?_
    handed_lt := fun {q c} hc => ?_, once := ?_ }
  · exact hother (fun heq => hopen i (heq ▸ hq)) c (h.open_fresh hq c)
  · exact hother (fun heq => hpool (heq ▸ hq)) c (h.pool_fresh hq c)
  · rw [mem_append, mem_map] at hc
    obtain hc | ⟨_, -, heq⟩ := hc
    · exact h.handed_lt hc
    · exact (Prod.mk.inj heq).1 ▸ hlt
  · refine List.Nodup.append h.once (hclients.map fun a b heq => (Prod.mk.inj heq).2) ?_
    intro x hx hnew
    obtain ⟨c, -, rfl⟩ := mem_map.mp hnew
    exact hfresh c hx

/-- A publication that is not open may be left to the pool. -/
lemma submit (hlt : p < begun) (hfresh : ∀ c, (p, c) ∉ handed) (hopen : ∀ i, opened i ≠ some p)
    (hpool : p ∉ pool) : InboundBooks opened begun (pool ++ [p]) handed entries := by
  refine { h with
    open_pool := fun {i q} hq hmem => ?_, pool_lt := fun {q} hmem => ?_
    pool_fresh := fun {q} hmem => ?_, pool_nodup := ?_ }
  · obtain hmem | rfl := mem_append.mp hmem |>.imp_right mem_singleton.mp
    · exact h.open_pool hq hmem
    · exact hopen i hq
  · obtain hmem | rfl := mem_append.mp hmem |>.imp_right mem_singleton.mp
    · exact h.pool_lt hmem
    · exact hlt
  · obtain hmem | rfl := mem_append.mp hmem |>.imp_right mem_singleton.mp
    · exact h.pool_fresh hmem
    · exact hfresh
  · exact nodup_append.mpr ⟨h.pool_nodup, nodup_singleton p,
      fun q hq r hr heq => hpool (mem_singleton.mp hr ▸ heq ▸ hq)⟩

end

/-- The pool takes a task out. -/
lemma take (h : InboundBooks opened begun (p :: pool) handed entries) :
    InboundBooks opened begun pool handed entries where
  __ := h
  open_pool hq hmem := h.open_pool hq (mem_cons_of_mem p hmem)
  pool_lt hmem := h.pool_lt (mem_cons_of_mem p hmem)
  pool_fresh hmem := h.pool_fresh (mem_cons_of_mem p hmem)
  pool_nodup := h.pool_nodup.of_cons

end InboundBooks

namespace InboundSession

variable {cfg : InboundConfig} {s : InboundSession} {packetID : Nat}

/-- The publications of the tracker. -/
def entries (s : InboundSession) (packetID : Nat) : Option Nat :=
  (s.inflight.lookup .inbound packetID).map (·.message.number)

/-- The books of a session are in order. -/
def Books (s : InboundSession) : Prop :=
  InboundBooks s.opened s.begun (s.fanOutPool.map (·.number)) s.handed s.entries

variable {s' : InboundSession}

lemma Books.congr (h : s.Books) (hopened : s'.opened = s.opened)
    (hbegun : s'.begun = s.begun) (hpool : s'.fanOutPool = s.fanOutPool)
    (hhanded : s'.handed = s.handed) (hinflight : s'.inflight = s.inflight) : s'.Books := by
  unfold Books entries
  rw [hopened, hbegun, hpool, hhanded, hinflight]
  exact h

variable {e : InflightMessage Publication}

lemma ackInbound_of_some (he : s.inflight.lookup .inbound packetID = some e) :
    s.ackInbound packetID = { s with inflight := s.inflight.erase .inbound packetID } := by
  simp [ackInbound, Inflight.ackInbound, Inflight.ackDirection, he]

lemma entries_erase (h : s'.inflight = s.inflight.erase .inbound packetID) :
    s'.entries = update s.entries packetID none := by
  funext i
  unfold entries
  rw [h, lookup_erase, update_apply]
  split <;> split <;> simp_all

lemma entries_put (h : s'.inflight = s.inflight.put .inbound packetID e) :
    s'.entries = update s.entries packetID (some e.message.number) := by
  funext i
  unfold entries
  rw [h, lookup_put, update_apply]
  split <;> split <;> simp_all

variable {env : Surroundings}

lemma nodup_clients_publish (h : env.addressees.Nodup) (msg : Envelope)
    (kind : RouteKind) : (env.publish msg kind).1.clients.Nodup := by
  refine nodup_iff_count_le_one.mpr fun c => ?_
  exact Nat.le_trans (env.count_clients_publish msg kind c) (nodup_iff_count_le_one.mp h c)

/-- Once it is closed, the publication of an entry is nowhere any more, and has been handed to nobody. -/
lemma Books.closed (h : s.Books) (he : s.inflight.lookup .inbound packetID = some e) :
    e.message.number < s.begun ∧ (∀ c, (e.message.number, c) ∉ s.handed) ∧
      (∀ i, update s.opened packetID none i ≠ some e.message.number) ∧
      e.message.number ∉ s.fanOutPool.map (·.number) := by
  have hopen : s.opened packetID = some e.message.number := h.entry (by simp [entries, he])
  refine ⟨h.open_lt hopen, h.open_fresh hopen, fun i hi => ?_, h.open_pool hopen⟩
  obtain ⟨hne, hi⟩ := InboundBooks.update_none_eq_some.mp hi
  exact hne (h.open_inj hi hopen)

/-- What `HandlePubRel` can come to. -/
inductive PubRelEffect (cfg : InboundConfig) (s : InboundSession) (env : Surroundings) (packetID : Nat) :
    InboundSession → Prop
  | unknown (hnone : s.inflight.lookup .inbound packetID = none) :
    PubRelEffect cfg s env packetID (s.writePubComp packetID (compReason cfg false))
  | submitted (e : InflightMessage Publication) (he : s.inflight.lookup .inbound packetID = some e)
      (hfans : FansOut cfg e.message) :
    PubRelEffect cfg s env packetID
      ({ s with
          inflight := s.inflight.erase .inbound packetID
          fanOutPool := s.fanOutPool ++ [e.message] }.writePubComp packetID (compReason cfg true))
  | published (e : InflightMessage Publication) (he : s.inflight.lookup .inbound packetID = some e)
      (hdone : FansOut cfg e.message ∨ (s.publish cfg env e.message).2 = none) :
    PubRelEffect cfg s env packetID
      ({ (s.publish cfg env e.message).1 with
          inflight := s.inflight.erase .inbound packetID }.writePubComp packetID (compReason cfg true))
  | failed (e : InflightMessage Publication) (he : s.inflight.lookup .inbound packetID = some e)
      (hfans : ¬ FansOut cfg e.message) (herr : (s.publish cfg env e.message).2 ≠ none) :
    PubRelEffect cfg s env packetID { (s.publish cfg env e.message).1 with connected := false }

lemma pubRelEffect (env : Surroundings) (submit : Bool) :
    PubRelEffect cfg s env packetID (s.handlePubRel cfg env submit packetID) := by
  cases he : s.inflight.lookup .inbound packetID with
  | none =>
    simp only [handlePubRel, completeInboundQoS2, he]
    exact .unknown he
  | some e =>
    by_cases hfans : FansOut cfg e.message
    · have hif : cfg.asyncFanOut = true ∧ cfg.resolve e.message.msg.topic = .pubSub := hfans
      simp only [handlePubRel, completeInboundQoS2, he, if_pos hif, ackInbound_of_some he]
      cases submit with
      | true => exact .submitted e he hfans
      | false => exact .published e he (.inl hfans)
    have hif : ¬ (cfg.asyncFanOut = true ∧ cfg.resolve e.message.msg.topic = .pubSub) := hfans
    simp only [handlePubRel, completeInboundQoS2, he, if_neg hif]
    cases herr : (s.publish cfg env e.message).2 with
    | none =>
      have hpublish : s.publish cfg env e.message = ((s.publish cfg env e.message).1, none) :=
        Prod.ext rfl herr
      have he' : (s.publish cfg env e.message).1.inflight.lookup .inbound packetID = some e := he
      rw [hpublish]
      simp only [ackInbound_of_some he']
      exact .published e he (.inr herr)
    | some err =>
      have hpublish : s.publish cfg env e.message = ((s.publish cfg env e.message).1, some err) :=
        Prod.ext rfl herr
      rw [hpublish]
      exact .failed e he hfans (by simp [herr])

lemma Books.pubRel {submit : Bool} (h : s.Books)
    (hserves : s.ServesOnce cfg (.pubrel packetID env submit))
    (heffect : PubRelEffect cfg s env packetID s') : s'.Books := by
  have hclose := InboundBooks.close h packetID
  cases heffect with
  | unknown hnone =>
    refine hclose.track fun {i p} hi => ?_
    have hne : i ≠ packetID := by
      rintro rfl
      simp [entries, writePubComp, hnone] at hi
    exact InboundBooks.update_none_eq_some.mpr ⟨hne, h.entry hi⟩
  | submitted e he hfans =>
    obtain ⟨hlt, hfresh, hopen, hpool⟩ := h.closed he
    have hbooks := hclose.submit hlt hfresh hopen hpool
    unfold Books
    rw [entries_erase (s := s) rfl]
    simpa [writePubComp] using hbooks
  | published e he hdone =>
    obtain ⟨hlt, hfresh, hopen, hpool⟩ := h.closed he
    have hbooks := hclose.hand hlt hfresh hopen hpool
      (nodup_clients_publish (hserves e he).1 e.message.msg (cfg.resolve e.message.msg.topic))
    unfold Books
    rw [entries_erase (s := s) rfl]
    exact hbooks
  | failed e he hfans herr =>
    -- Nobody was served, so the publication is as open as before.
    have hnobody : (env.publish e.message.msg (cfg.resolve e.message.msg.topic)).1.clients = [] :=
      Surroundings.clients_publish_of_error _ herr ((hserves e he).2 hfans)
    refine h.congr rfl rfl rfl ?_ rfl
    simp [publish, hnobody]

/-- The entry of a publication that `HandlePublish` has the tracker accept. -/
def newEntry (number : Nat) (msg : Envelope) : InflightMessage Publication :=
  { message := ⟨number, { msg with qos := 2 }⟩ }

/-- What `HandlePublish` can come to. -/
inductive PublishEffect (s : InboundSession) (packetID : Nat) (msg : Envelope) : InboundSession → Prop
  | nothing (connected : Bool) (sent : List InboundReply) :
    PublishEffect s packetID msg { s with connected, sent }
  | resumed (number : Nat) (hopen : s.opened packetID = some number) (sent : List InboundReply) :
    PublishEffect s packetID msg { s with
      inflight := s.inflight.put .inbound packetID (newEntry number msg)
      sent }
  | started (sent : List InboundReply) :
    PublishEffect s packetID msg { s with
      inflight := s.inflight.put .inbound packetID (newEntry s.begun msg)
      opened := Function.update s.opened packetID (some s.begun)
      begun := s.begun + 1
      sent }

lemma publishEffect (verdict : Verdict) (msg : Envelope) :
    PublishEffect s packetID msg (s.handlePublish verdict packetID msg) := by
  cases verdict with
  | refuse reasonCode | disconnect => exact .nothing _ _
  | accept =>
    simp only [handlePublish, addInbound]
    by_cases hnone : s.inflight.lookup .inbound packetID = none
    · by_cases hfull : s.inflight.maxSize ≤ s.inflight.count .inbound
      · simp only [hnone, hfull, ne_eq, not_true_eq_false, if_false, if_true]
        exact .nothing _ _
      simp only [hnone, hfull, ne_eq, not_true_eq_false, if_false, InboundSession.begin]
      split
      · exact .resumed _ ‹_› _
      · exact .started _
    · simp only [hnone, ne_eq, not_false_eq_true, if_true]
      exact .nothing _ _

lemma Books.publish {msg : Envelope} (h : s.Books) (heffect : PublishEffect s packetID msg s') :
    s'.Books := by
  cases heffect with
  | nothing connected sent => exact h.congr rfl rfl rfl rfl rfl
  | resumed number hopen sent =>
    refine InboundBooks.track h fun {i q} hi => ?_
    rw [entries_put (s := s) rfl] at hi
    obtain ⟨rfl, rfl⟩ | ⟨-, hi⟩ := InboundBooks.update_some_eq_some.mp hi
    · exact hopen
    · exact h.entry hi
  | started sent =>
    unfold Books
    rw [entries_put (s := s) rfl]
    exact InboundBooks.begin h packetID

/-- A step that serves once keeps the books in order. -/
theorem Books.step {event : Event} (h : s.Books) (hserves : s.ServesOnce cfg event) :
    (s.step cfg event).Books := by
  cases event with
  | publish verdict packetID msg =>
    simp only [InboundSession.step]
    split
    · exact h.publish (publishEffect verdict msg)
    · exact h
  | pubrel packetID env submit =>
    simp only [InboundSession.step]
    split
    · exact h.pubRel hserves (pubRelEffect env submit)
    · exact h
  | disconnect => exact h.congr rfl rfl rfl rfl rfl
  | reconnect resumes =>
    cases resumes with
    | true => exact h.congr rfl rfl rfl rfl rfl
    | false => exact InboundBooks.track h fun hi => nomatch hi
  | work env =>
    simp only [InboundSession.step]
    split
    · exact h
    rename_i p pool hpool
    have hbooks : InboundBooks s.opened s.begun (p.number :: pool.map (·.number)) s.handed s.entries :=
      by simpa only [Books, hpool, map_cons] using h
    refine hbooks.take.hand (hbooks.pool_lt mem_cons_self)
      (hbooks.pool_fresh mem_cons_self)
      (fun i hi => hbooks.open_pool hi mem_cons_self) ?_ (nodup_clients_publish hserves _ _)
    exact (nodup_cons.mp hbooks.pool_nodup).1

/-! ### A PUBCOMP with success is the truth -/

/-- Every publication that a PUBCOMP with success was sent for has been distributed. An entry of the
tracker stands for the open publication of its packet identifier; and in MQTT 3, where every PUBCOMP
counts as success, no publication is open without an entry. -/
structure Truthful (cfg : InboundConfig) (s : InboundSession) : Prop where
  completed : ∀ p ∈ s.completed, p ∈ s.distributed
  entry : ∀ i e, s.inflight.lookup .inbound i = some e →
    s.opened i = some e.message.number ∧ 0 < e.message.msg.qos
  tracked : cfg.version = .v5 ∨ ∀ i, s.inflight.lookup .inbound i = none → s.opened i = none

lemma Truthful.congr (h : s.Truthful cfg)
    (hcompleted : s'.completed = s.completed) (hdistributed : ∀ p ∈ s.distributed, p ∈ s'.distributed)
    (hinflight : s'.inflight = s.inflight) (hopened : s'.opened = s.opened) : s'.Truthful cfg := by
  refine ⟨fun p hp => ?_, ?_, ?_⟩
  · rw [hcompleted] at hp
    exact hdistributed p (h.completed p hp)
  · rw [hinflight, hopened]
    exact h.entry
  · rw [hinflight, hopened]
    exact h.tracked

lemma mem_distributed_publish {p : Publication} {q : Nat}
    (hq : q ∈ s.distributed) : q ∈ (s.publish cfg env p).1.distributed := by
  simp only [publish]
  split
  · exact mem_cons_of_mem _ hq
  · exact hq

/-- A publication that the sessions have taken is distributed once it is published. -/
lemma distributed_publish {p : Publication} (htakes : ∀ n, env.takes n = true)
    (hqos : 0 < p.msg.qos) (hdone : (s.publish cfg env p).2 = none) :
    p.number ∈ (s.publish cfg env p).1.distributed := by
  have hdone : (env.publish p.msg (cfg.resolve p.msg.topic)).2 = none := hdone
  have hmissed := Surroundings.missed_publish htakes hqos _ hdone
  simp [publish, hdone, hmissed]

/-- A PUBCOMP is the truth if it tells of no success, or of that of a publication that has been
distributed. The entry goes with it. -/
lemma Truthful.writePubComp {reason : Option Nat} (h : s.Truthful cfg)
    (htruth : ∀ p, s.opened packetID = some p → reason = none ∨ reason = some 0 → p ∈ s.distributed)
    (tracker : Inflight Publication) (hlookup : ∀ i, tracker.lookup .inbound i =
      if i = packetID then none else s.inflight.lookup .inbound i) :
    ({ s with inflight := tracker }.writePubComp packetID reason).Truthful cfg := by
  refine ⟨fun p hp => ?_, fun i e he => ?_, h.tracked.imp_right fun htracked i hi => ?_⟩
  · simp only [InboundSession.writePubComp] at hp
    split at hp
    · split at hp
      · obtain rfl | hp := mem_cons.mp hp
        · exact htruth _ ‹_› ‹_›
        · exact h.completed p hp
      · exact h.completed p hp
    · exact h.completed p hp
  · have he : tracker.lookup .inbound i = some e := he
    rw [hlookup] at he
    split at he
    · exact nomatch he
    · rename_i hne
      simp only [InboundSession.writePubComp, update_of_ne hne]
      exact h.entry i e he
  · have hi : tracker.lookup .inbound i = none := hi
    simp only [InboundSession.writePubComp, update_apply]
    split
    · rfl
    · rename_i hne
      rw [hlookup, if_neg hne] at hi
      exact htracked i hi

lemma lookup_erase_inbound (i : Nat) : (s.inflight.erase .inbound packetID).lookup .inbound i =
    if i = packetID then none else s.inflight.lookup .inbound i := by
  simp [lookup_erase]

lemma Truthful.pubRel {submit : Bool} (h : s.Truthful cfg)
    (hdistributes : s.Distributes cfg (.pubrel packetID env submit))
    (heffect : PubRelEffect cfg s env packetID s') : s'.Truthful cfg := by
  cases heffect with
  | unknown hnone =>
    refine h.writePubComp (fun p hopen hreason => ?_) s.inflight fun i => ?_
    · -- MQTT 5 is told so, and in MQTT 3 nothing is open here.
      obtain hv5 | htracked := h.tracked
      · simp [compReason, hv5, packetIdentifierNotFound] at hreason
      · exact nomatch (htracked packetID hnone).symm.trans hopen
    · split
      · rename_i hi
        rw [hi, hnone]
      · rfl
  | submitted e he hfans => exact absurd hfans (hdistributes e he).1
  | published e he hdone =>
    obtain ⟨hfans, htakes⟩ := hdistributes e he
    obtain ⟨hopen, hqos⟩ := h.entry packetID e he
    have hpublished : (s.publish cfg env e.message).1.Truthful cfg :=
      h.congr rfl (fun _ => mem_distributed_publish) rfl rfl
    refine hpublished.writePubComp (fun p hp _ => ?_) _ lookup_erase_inbound
    obtain rfl : e.message.number = p := Option.some.inj (hopen.symm.trans hp)
    exact distributed_publish htakes hqos (hdone.resolve_left hfans)
  | failed e he hfans herr => exact h.congr rfl (fun _ => mem_distributed_publish) rfl rfl

/-- A new entry is that of what its packet identifier stands for. -/
lemma Truthful.track {number : Nat} {msg : Envelope} (h : s.Truthful cfg)
    (hcompleted : s'.completed = s.completed) (hdistributed : s'.distributed = s.distributed)
    (hinflight : s'.inflight = s.inflight.put .inbound packetID (newEntry number msg))
    (hopened : s'.opened packetID = some number)
    (hother : ∀ i, i ≠ packetID → s'.opened i = s.opened i) : s'.Truthful cfg := by
  have hlookup (i : Nat) : s'.inflight.lookup .inbound i =
      if i = packetID then some (newEntry number msg) else s.inflight.lookup .inbound i := by
    simp [hinflight, lookup_put]
  refine ⟨fun p hp => ?_, fun i e he => ?_, h.tracked.imp_right fun htracked i hi => ?_⟩
  · rw [hcompleted] at hp
    rw [hdistributed]
    exact h.completed p hp
  · rw [hlookup] at he
    split at he
    · rename_i hi
      obtain rfl := Option.some.inj he
      exact ⟨hi ▸ hopened, Nat.succ_pos 1⟩
    · rename_i hne
      rw [hother i hne]
      exact h.entry i e he
  · rw [hlookup] at hi
    split at hi
    · exact nomatch hi
    · rename_i hne
      rw [hother i hne]
      exact htracked i hi

lemma Truthful.publish {msg : Envelope} (h : s.Truthful cfg)
    (heffect : PublishEffect s packetID msg s') : s'.Truthful cfg := by
  cases heffect with
  | nothing connected sent => exact h.congr rfl (fun _ => id) rfl rfl
  | resumed number hopen sent => exact h.track rfl rfl rfl hopen fun _ _ => rfl
  | started sent =>
    exact h.track rfl rfl rfl (update_self ..) fun i hne => update_of_ne hne ..

/-- A step that distributes keeps a session truthful. -/
theorem Truthful.step {event : Event} (h : s.Truthful cfg) (hdistributes : s.Distributes cfg event) :
    (s.step cfg event).Truthful cfg := by
  cases event with
  | publish verdict packetID msg =>
    simp only [InboundSession.step]
    split
    · exact h.publish (publishEffect verdict msg)
    · exact h
  | pubrel packetID env submit =>
    simp only [InboundSession.step]
    split
    · exact h.pubRel hdistributes (pubRelEffect env submit)
    · exact h
  | disconnect => exact h.congr rfl (fun _ => id) rfl rfl
  | reconnect resumes =>
    cases resumes with
    | true => exact h.congr rfl (fun _ => id) rfl rfl
    | false =>
      exact ⟨h.completed, fun i e he => (nomatch he),
        hdistributes.imp_right fun hnone i _ => hnone i⟩
  | work env =>
    simp only [InboundSession.step]
    split
    · exact h
    · exact h.congr rfl (fun _ => mem_distributed_publish) rfl rfl

/-! ### Runs -/

/-- A session that has just begun. -/
def initial (maxSize : Nat) : InboundSession := { inflight := { maxSize } }

lemma books_initial (maxSize : Nat) : (initial maxSize).Books where
  open_lt h := nomatch h
  open_fresh h := nomatch h
  open_inj h := nomatch h
  open_pool h := nomatch h
  pool_lt h := nomatch h
  pool_fresh h := nomatch h
  pool_nodup := nodup_nil
  handed_lt h := nomatch h
  entry h := nomatch h
  once := nodup_nil

lemma truthful_initial (maxSize : Nat) : (initial maxSize).Truthful cfg :=
  ⟨fun _ h => (nomatch h), fun _ _ h => (nomatch h), .inr fun _ _ => rfl⟩

lemma PublishEffect.handed_subset {msg : Envelope} (h : PublishEffect s packetID msg s') :
    s.handed ⊆ s'.handed := by
  cases h <;> exact fun _ h => h

lemma PubRelEffect.handed_subset (h : PubRelEffect cfg s env packetID s') :
    s.handed ⊆ s'.handed := by
  cases h with
  | unknown | submitted => exact fun _ h => h
  | published | failed => exact subset_append_left _ _

/-- What was handed over stays so. -/
lemma handed_subset_step (event : Event) : s.handed ⊆ (s.step cfg event).handed := by
  cases event with
  | publish verdict packetID msg =>
    simp only [step]
    split
    · exact (publishEffect verdict msg).handed_subset
    · exact fun _ h => h
  | pubrel packetID env submit =>
    simp only [step]
    split
    · exact (pubRelEffect env submit).handed_subset
    · exact fun _ h => h
  | disconnect => exact fun _ h => h
  | reconnect resumes => cases resumes <;> exact fun _ h => h
  | work env =>
    simp only [step]
    split
    · exact fun _ h => h
    · exact subset_append_left _ _

/-- In every run in which the subscriptions name no session twice and the other nodes are reached, no
session is handed a publication twice, and no PUBREL hands it to one that has been served. In every
run in which the sessions take what they are given while the client waits, a PUBCOMP with success tells
of a publication that has been distributed. -/
theorem exactly_once (cfg : InboundConfig) (maxSize : Nat) (events : List Event) :
    let s := run cfg (initial maxSize) events
    (Transition.Along (step cfg) (ServesOnce cfg) (initial maxSize) events →
      s.handed.Nodup ∧ ∀ event, s.ServesOnce cfg event → ∀ served ∈ s.handed,
        (s.step cfg event).handed.count served = 1) ∧
    (Transition.Along (step cfg) (Distributes cfg) (initial maxSize) events →
      ∀ p ∈ s.completed, p ∈ s.distributed) := by
  refine ⟨fun halong => ?_, fun halong => ?_⟩
  · have hbooks := Transition.invariant_run (fun _ _ h hserves => Books.step h hserves)
      (books_initial maxSize) halong
    refine ⟨hbooks.once, fun event hserves served hserved => ?_⟩
    have honce := nodup_iff_count_le_one.mp (Books.step hbooks hserves).once served
    exact Nat.le_antisymm honce (count_pos_iff.mpr (handed_subset_step event hserved))
  · have htruthful := Transition.invariant_run (fun _ _ h hdistributes => Truthful.step h hdistributes)
      (truthful_initial maxSize) halong
    exact htruthful.completed

/-- A publication on its way: the client publishes and completes it. -/
def publishes (env : Surroundings) : List Event :=
  [.publish .accept 1 { topic := "a" }, .pubrel 1 env false]

/-- One local subscriber, and a cluster that routes the message or fails to. -/
def oneSubscriber (routePublish : Bool) : Surroundings :=
  { matched := [{ subscriber := .client "x" }], routePublish }

/-- The client sends the publication and its PUBREL twice. -/
def retransmits (env : Surroundings) : List Event :=
  .publish .accept 1 { topic := "a" } :: publishes env ++ [.pubrel 1 env false]

theorem exactly_once_oneSubscriber :
    (run ⟨.v5, false, fun _ => .pubSub⟩ (initial 10) (retransmits (oneSubscriber true))).handed =
        [(0, "x")] ∧
      (run ⟨.v5, false, fun _ => .pubSub⟩ (initial 10)
        (retransmits (oneSubscriber true))).handed.Nodup ∧
      0 ∈ (run ⟨.v5, false, fun _ => .pubSub⟩ (initial 10)
        (retransmits (oneSubscriber true))).distributed := by
  have h := exactly_once ⟨.v5, false, fun _ => .pubSub⟩ 10 (retransmits (oneSubscriber true))
  refine ⟨by decide +kernel, (h.1 ?_).1, h.2 ?_ 0 (by decide +kernel)⟩
  · have hserves (s : InboundSession) :
        s.ServesOnce ⟨.v5, false, fun _ => .pubSub⟩ (.pubrel 1 (oneSubscriber true) false) :=
      fun e he => ⟨by decide +kernel, fun _ _ hrouted => nomatch hrouted⟩
    exact ⟨trivial, trivial, hserves _, hserves _, trivial⟩
  · have hdistributes (s : InboundSession) :
        s.Distributes ⟨.v5, false, fun _ => .pubSub⟩ (.pubrel 1 (oneSubscriber true) false) :=
      fun e he => ⟨fun hfans => (nomatch hfans.1), fun _ => rfl⟩
    exact ⟨trivial, trivial, hdistributes _, hdistributes _, trivial⟩

/-- The other nodes cannot be reached when the publication is first completed. The client comes back
and sends PUBREL again, and the local subscriber has the message twice. With asynchronous fan-out the
client is told of success although the message got nowhere beyond this node. -/
theorem served_twice :
    let failed := publishes (oneSubscriber false)
    let again := failed ++ [.reconnect true, .pubrel 1 (oneSubscriber true) false]
    let cfg : InboundConfig := ⟨.v5, false, fun _ => .pubSub⟩
    (run cfg (initial 10) failed).handed = [(0, "x")] ∧
      (run cfg (initial 10) failed).completed = [] ∧
      (run cfg (initial 10) again).handed = [(0, "x"), (0, "x")] ∧
      ¬ (run cfg (initial 10) again).handed.Nodup ∧
      (run { cfg with asyncFanOut := true } (initial 10) failed).completed = [0] ∧
      (run { cfg with asyncFanOut := true } (initial 10) failed).distributed = [] := by
  refine ⟨by decide +kernel, by decide +kernel, by decide +kernel, by decide +kernel,
    by decide +kernel, by decide +kernel⟩

end InboundSession

end FluxMQ.Mqtt
