import FluxMQ.Delivery.Mqtt
import FluxMQ.Library.Runs
import FluxMQ.Mqtt.Inflight

/-!
# Acknowledgements of what the broker sends

`HandlePubAck`, `HandlePubRec` and `HandlePubComp` of `mqtt/broker/v3_handler.go` and `v5_handler.go`
with `AckMessage` of `mqtt/broker/delivery.go`, on a session that the broker goes on sending to. The
handlers look an entry up by its packet identifier only. An error of a handler ends the connection.

* `OutSession.Rules`: what an acknowledgement may do.
* `OutSession.Conforms`: what a client that keeps to the protocol sends.
* `OutSession.rules_iff_conforms`: in every reachable state the first is kept exactly by the second.

Whether a PUBREC was a successful one is not kept by the broker; `released` records it for the
statement of the rules.
-/

namespace FluxMQ.Mqtt

open Inflight

/-- The protocol version of a session, which selects the handler. -/
inductive Version where
  | v3
  | v5
  deriving Repr, DecidableEq

/-- An acknowledgement from the client. A PUBREC of MQTT 3 has no reason code. -/
inductive AckPacket where
  | puback (packetID : Nat)
  | pubrec (packetID reasonCode : Nat)
  | pubcomp (packetID : Nat)
  deriving Repr, DecidableEq

/-- A packet to the client. -/
inductive OutPacket where
  | publish (packetID : Nat) (msg : DeliveryMessage)
  | pubrel (packetID : Nat)
  | disconnect (reasonCode : Nat)
  deriving Repr, DecidableEq

/-- A session, as far as sending to its client goes. The generation of the window is the epoch of the
session. -/
structure OutSession where
  connected : Bool := true
  inflight : Inflight DeliveryMessage := {}
  window : SendWindow
  nextPacketID : Nat := 0
  pending : List DeliveryMessage := []
  offline : List DeliveryMessage := []
  /-- What has been written. -/
  sent : List OutPacket := []
  /-- The packet identifiers that a successful PUBREC has come for. -/
  released : List Nat := []

/-- A PUBREC that ends the exchange. -/
def isError (version : Version) (reasonCode : Nat) : Bool :=
  version = .v5 && 0x80 ≤ reasonCode

namespace OutSession

variable (cfg : SessionConfig) (s : OutSession)

/-- A message goes to the pending queue, or is dropped if that is full. -/
def defer (msg : DeliveryMessage) : OutSession :=
  match cfg.pendingCap with
  | some cap => if s.pending.length < cap then { s with pending := s.pending ++ [msg] } else s
  | none => s

/-- `deliverQoS` of a message with QoS 1 or 2. Without a token a blocking session waits. -/
def deliver (msg : DeliveryMessage) : OutSession :=
  match s.inflight.findPacketID (2 ^ 16) (s.nextPacketID + 1) with
  | none => s
  | some counter =>
    let packetID := counter % 2 ^ 16
    let s := { s with nextPacketID := counter }
    match s.window.tryAcquire packetID s.window.gen with
    | (_, false) => if cfg.blocking then s else s.defer cfg msg
    | (window, true) =>
      match s.inflight.add .outbound packetID msg with
      | (_, some _) => { s with window := window.release packetID window.gen }.defer cfg msg
      | (inflight, none) =>
        { s with
          window, inflight
          sent := s.sent ++ [.publish packetID msg]
          released := s.released.filter (· ≠ packetID) }

def drainOnePending : OutSession :=
  match s.pending with
  | [] => s
  | msg :: pending => { s with pending }.deliver cfg msg

/-- `Enqueue` of the offline queue. -/
def enqueueOffline (msg : DeliveryMessage) : OutSession :=
  if cfg.maxOffline ≤ s.offline.length then
    if cfg.evictOnFull then { s with offline := s.offline.tail ++ [msg] } else s
  else { s with offline := s.offline ++ [msg] }

/-- `DisconnectIf`, by which the loop over the packets of a client ends when a handler fails. What is
pending goes to the offline queue. -/
def disconnect (version : Version) : OutSession :=
  let drained := (s.pending.filter (0 < ·.qos)).foldl (·.enqueueOffline cfg) s
  { drained with
    connected := false
    pending := []
    sent := if version = .v5 then s.sent ++ [.disconnect 0x82] else s.sent }

/-- The first part of `AckMessage`: the entry is removed and its token returned. -/
def settle (packetID : Nat) : Option OutSession :=
  match s.inflight.ack packetID with
  | (_, none) => none
  | (inflight, some _) =>
    some { s with
      inflight
      window := s.window.release packetID s.window.gen
      released := s.released.filter (· ≠ packetID) }

/-- `HandlePubRec` of both versions. The reason code is not looked at, nor whether the packet is
tracked. -/
def handlePubRec (version : Version) (packetID reasonCode : Nat) : OutSession :=
  { s with
    inflight := (s.inflight.updateState packetID .pubRecReceived).1
    sent := s.sent ++ [.pubrel packetID]
    released :=
      if (s.inflight.has packetID) ∧ isError version reasonCode = false then packetID :: s.released
      else s.released }

/-- What an acknowledgement does to the session, before a pending message takes the place of one that
was settled: `HandlePubAck` and `HandlePubComp` are `AckMessage`, which fails for a packet identifier
that is not in flight. -/
def react (version : Version) : AckPacket → OutSession
  | .puback packetID | .pubcomp packetID => (s.settle packetID).getD (s.disconnect cfg version)
  | .pubrec packetID reasonCode => s.handlePubRec version packetID reasonCode

/-- `HandlePubAck`, `HandlePubRec` and `HandlePubComp`, with the end of the connection if they fail. Behind
it nothing is read any more. -/
def handle (version : Version) (packet : AckPacket) : OutSession :=
  if s.connected then
    match packet with
    | .puback packetID | .pubcomp packetID =>
      if (s.settle packetID).isSome then (s.react cfg version packet).drainOnePending cfg
      else s.react cfg version packet
    | .pubrec _ _ => s.react cfg version packet
  else s

/-- Something that happens to a session. -/
inductive Event where
  | send (msg : DeliveryMessage)
  | receive (packet : AckPacket)

/-- What a session makes of an event. -/
def step (cfg : SessionConfig) (version : Version) (s : OutSession) : Event → OutSession
  | .send msg => if s.connected then s.deliver cfg msg else s.enqueueOffline cfg msg
  | .receive packet => s.handle cfg version packet

/-- The session after a sequence of events. -/
abbrev run (version : Version) (events : List Event) : OutSession :=
  Transition.run (step cfg version) s events

/-! ### What an acknowledgement may do -/

/-- The entry of a message that was sent. -/
def entry (packetID : Nat) : Option (InflightMessage DeliveryMessage) :=
  s.inflight.lookup .outbound packetID

/-- An acknowledgement of the right type for an entry. -/
def Fits (packetID : Nat) (e : InflightMessage DeliveryMessage) : AckPacket → Prop
  | .puback i => i = packetID ∧ e.message.qos = 1
  | .pubrec i _ => i = packetID ∧ e.message.qos = 2
  | .pubcomp i => i = packetID ∧ e.message.qos = 2 ∧ i ∈ s.released

/-- An acknowledgement that may remove an entry. -/
def Ends (version : Version) (packetID : Nat) (e : InflightMessage DeliveryMessage) :
    AckPacket → Prop
  | .puback i => i = packetID ∧ e.message.qos = 1
  | .pubrec i reasonCode => i = packetID ∧ e.message.qos = 2 ∧ isError version reasonCode = true
  | .pubcomp i => i = packetID ∧ e.message.qos = 2 ∧ i ∈ s.released

/-- What an acknowledgement may do to a session. -/
structure Rules (cfg : SessionConfig) (version : Version) (packet : AckPacket) : Prop where
  /-- It removes no entry but one that it ends, -/
  removes : ∀ i e, s.entry i = some e → (s.react cfg version packet).entry i = none →
    s.Ends version i e packet
  /-- and answers with PUBREL only for a message sent with QoS 2. -/
  pubrel : ∀ i, (s.react cfg version packet).sent = s.sent ++ [.pubrel i] →
    ∃ e, s.entry i = some e ∧ e.message.qos = 2
  /-- A token is returned exactly with the entry it was taken for. -/
  tokens : ∀ i ∈ s.window.held, i ∉ (s.react cfg version packet).window.held ↔
    (∃ e, s.entry i = some e) ∧ (s.react cfg version packet).entry i = none
  /-- Of the wrong type or for a packet identifier that no sent message has, it changes nothing. -/
  inert : (∀ i e, s.entry i = some e → ¬ s.Fits i e packet) → s.react cfg version packet = s

/-- What a client that keeps to the protocol sends. -/
def Conforms : AckPacket → Prop
  | .puback i => ∃ e, s.entry i = some e ∧ e.message.qos = 1
  | .pubrec i _ => ∃ e, s.entry i = some e ∧ e.message.qos = 2
  | .pubcomp i => ∃ e, s.entry i = some e ∧ e.message.qos = 2 ∧ i ∈ s.released

/-- Every message in flight holds a token. -/
def HoldsTokens : Prop := ∀ i, s.entry i ≠ none → i ∈ s.window.held

variable {cfg s} {version : Version} {packetID : Nat}

/-! ### The handlers -/

lemma settle_of_none (h : s.entry packetID = none) : s.settle packetID = none := by
  have h : s.inflight.lookup .outbound packetID = none := h
  simp [settle, Inflight.ack, ackDirection, h]

lemma settle_of_some {e : InflightMessage DeliveryMessage} (h : s.entry packetID = some e) :
    s.settle packetID = some { s with
      inflight := s.inflight.erase .outbound packetID
      window := s.window.release packetID s.window.gen
      released := s.released.filter (· ≠ packetID) } := by
  have h : s.inflight.lookup .outbound packetID = some e := h
  simp [settle, Inflight.ack, ackDirection, h]

lemma held_tryAcquire {w w' : SendWindow} (h : w.tryAcquire packetID w.gen = (w', true)) (i : Nat) :
    i ∈ w'.held ↔ i ∈ w.held ∨ i = packetID := by
  simp only [SendWindow.tryAcquire, ne_eq, not_true_eq_false, if_false] at h
  split at h
  · obtain rfl := (Prod.mk.inj h).1
    grind
  split at h
  · exact nomatch h
  · obtain rfl := (Prod.mk.inj h).1
    simp [or_comm]

/-- What has been tracked and the tokens stay when messages go to the offline queue. -/
lemma enqueueOffline_eq (msg : DeliveryMessage) :
    (s.enqueueOffline cfg msg).inflight = s.inflight ∧ (s.enqueueOffline cfg msg).window = s.window := by
  unfold enqueueOffline
  repeat' split
  all_goals exact ⟨rfl, rfl⟩

lemma disconnect_eq :
    (s.disconnect cfg version).inflight = s.inflight ∧ (s.disconnect cfg version).window = s.window := by
  unfold disconnect
  dsimp only
  generalize s.pending.filter (0 < ·.qos) = messages
  induction messages generalizing s with
  | nil => exact ⟨rfl, rfl⟩
  | cons msg messages ih =>
    obtain ⟨hinflight, hwindow⟩ := ih (s := s.enqueueOffline cfg msg)
    have hkept : (s.enqueueOffline cfg msg).inflight = s.inflight ∧
        (s.enqueueOffline cfg msg).window = s.window := enqueueOffline_eq msg
    exact ⟨hinflight.trans hkept.1, hwindow.trans hkept.2⟩

/-- Settling an entry keeps the rules exactly if it is there and is one that the packet ends. -/
lemma rules_settle_iff (packet : AckPacket) (hconnected : s.connected = true)
    (hreact : s.react cfg version packet = (s.settle packetID).getD (s.disconnect cfg version))
    (hsame : ∀ i e, s.Fits i e packet → i = packetID)
    (hfits : ∀ i e, s.Ends version i e packet → s.Fits i e packet) :
    s.Rules cfg version packet ↔ ∃ e, s.entry packetID = some e ∧ s.Ends version packetID e packet := by
  cases hentry : s.entry packetID with
  | none =>
    -- The packet fits no entry, and yet the connection ends.
    rw [settle_of_none hentry, Option.getD_none] at hreact
    refine iff_of_false (fun hrules => ?_) (by simp)
    have hinert := hrules.inert fun i e hi hfit => by
      rw [hsame i e hfit, hentry] at hi
      cases hi
    rw [hreact] at hinert
    have hended : (s.disconnect cfg version).connected = false := rfl
    rw [hinert, hconnected] at hended
    cases hended
  | some e =>
    rw [settle_of_some hentry, Option.getD_some] at hreact
    have hafter (i : Nat) : (s.react cfg version packet).entry i =
        if i = packetID then none else s.entry i := by
      rw [hreact]
      simp [entry, lookup_erase]
    constructor
    · intro hrules
      exact ⟨e, rfl, hrules.removes packetID e hentry (by simp [hafter])⟩
    rintro ⟨e', he', hended⟩
    obtain rfl := Option.some.inj he'
    refine ⟨fun i e' hi hnone => ?_, fun i hsent => ?_, fun i htoken => ?_, fun hinert => ?_⟩
    · rw [hafter] at hnone
      split at hnone
      · subst i
        exact Option.some.inj (hentry.symm.trans hi) ▸ hended
      · exact nomatch hi.symm.trans hnone
    · rw [hreact, List.self_eq_append_right] at hsent
      exact nomatch hsent
    · have hheld : i ∈ (s.react cfg version packet).window.held ↔ i ∈ s.window.held ∧ i ≠ packetID := by
        rw [hreact]
        exact SendWindow.mem_held_release
      rw [hafter, hheld]
      by_cases hi : i = packetID
      · subst i
        simp [hentry]
      simp only [hi, htoken, ne_eq, not_false_eq_true, and_true, not_true_eq_false, if_false,
        false_iff]
      rintro ⟨⟨e', he'⟩, hnone⟩
      exact nomatch he'.symm.trans hnone
    · exact absurd (hfits packetID e hended) (hinert packetID e hentry)

/-- A PUBREC is always answered, so it keeps the rules exactly if the answer is in place. -/
lemma rules_pubrec_iff {reasonCode : Nat} : s.Rules cfg version (.pubrec packetID reasonCode) ↔
    ∃ e, s.entry packetID = some e ∧ e.message.qos = 2 := by
  constructor
  · intro hrules
    exact hrules.pubrel packetID rfl
  rintro ⟨e, hentry, hqos⟩
  have hentry' : s.inflight.lookup .outbound packetID = some e := hentry
  have hafter (i : Nat) : (s.react cfg version (.pubrec packetID reasonCode)).entry i =
      if i = packetID then some { e with state := .pubRecReceived } else s.entry i := by
    simp [react, handlePubRec, entry, updateState, hentry', lookup_put]
  have hkept {i : Nat} {e' : InflightMessage DeliveryMessage} (hi : s.entry i = some e') :
      (s.react cfg version (.pubrec packetID reasonCode)).entry i ≠ none := by
    rw [hafter]
    split <;> simp [hi]
  refine ⟨fun i e' hi hnone => absurd hnone (hkept hi), fun i hsent => ?_, fun i htoken => ?_,
    fun hinert => absurd ⟨rfl, hqos⟩ (hinert packetID e hentry)⟩
  · have hsame := List.append_cancel_left hsent
    obtain rfl : packetID = i := by simpa using hsame
    exact ⟨e, hentry, hqos⟩
  · refine iff_of_false (not_not_intro htoken) ?_
    rintro ⟨⟨e', he'⟩, hnone⟩
    exact hkept he' hnone

/-- An acknowledgement keeps the rules exactly if it conforms. -/
lemma rules_iff (hconnected : s.connected = true) (packet : AckPacket) :
    s.Rules cfg version packet ↔ s.Conforms packet := by
  cases packet with
  | puback i =>
    rw [rules_settle_iff (.puback i) hconnected rfl (fun j e h => h.1.symm) fun j e h => h]
    simp [Ends, Conforms]
  | pubrec i reasonCode => exact rules_pubrec_iff
  | pubcomp i =>
    rw [rules_settle_iff (.pubcomp i) hconnected rfl (fun j e h => h.1.symm) fun j e h => h]
    simp [Ends, Conforms]

/-! ### Tokens -/

section

variable (h : s.HoldsTokens)
include h

lemma HoldsTokens.congr {s' : OutSession} (hinflight : s'.inflight = s.inflight)
    (hheld : s'.window.held = s.window.held) : s'.HoldsTokens := by
  intro i hi
  rw [hheld]
  refine h i ?_
  rwa [entry, hinflight] at hi

lemma HoldsTokens.defer (msg : DeliveryMessage) : (s.defer cfg msg).HoldsTokens := by
  unfold OutSession.defer
  repeat' split
  all_goals exact h.congr rfl rfl

lemma HoldsTokens.deliver (msg : DeliveryMessage) : (s.deliver cfg msg).HoldsTokens := by
  unfold OutSession.deliver
  split
  · exact h
  rename_i counter _
  have hcounted : ({ s with nextPacketID := counter } : OutSession).HoldsTokens := h.congr rfl rfl
  dsimp only
  split
  · split
    · exact hcounted
    · exact hcounted.defer msg
  rename_i window hacquire
  have hwindow := held_tryAcquire hacquire
  split
  · -- The tracker is full: the token goes back.
    rename_i hadd
    refine HoldsTokens.defer (fun i hi => ?_) msg
    have hlookup : s.inflight.lookup .outbound (counter % 2 ^ 16) = none := by
      simp only [add] at hadd
      split at hadd
      · exact (‹_ ∧ _›).1
      · exact nomatch hadd
    have hne : i ≠ counter % 2 ^ 16 := by
      rintro rfl
      exact hi hlookup
    exact SendWindow.mem_held_release.mpr ⟨(hwindow i).mpr (.inl (h i hi)), hne⟩
  · rename_i inflight hadd
    obtain rfl : s.inflight.put .outbound (counter % 2 ^ 16) { message := msg } = inflight := by
      simp only [add] at hadd
      split at hadd
      · exact nomatch hadd
      · exact (Prod.mk.inj hadd).1
    intro i hi
    refine (hwindow i).mpr ?_
    by_cases hid : i = counter % 2 ^ 16
    · exact .inr hid
    · refine .inl (h i ?_)
      simpa only [entry, lookup_put, hid, and_false, if_false] using hi

lemma HoldsTokens.drainOnePending : (s.drainOnePending cfg).HoldsTokens := by
  unfold OutSession.drainOnePending
  split
  · exact h
  · rename_i msg pending _
    have hrest : ({ s with pending } : OutSession).HoldsTokens := h.congr rfl rfl
    exact hrest.deliver msg

lemma HoldsTokens.settle {s' : OutSession} (hsettle : s.settle packetID = some s') :
    s'.HoldsTokens := by
  cases hentry : s.entry packetID with
  | none =>
    rw [settle_of_none hentry] at hsettle
    exact nomatch hsettle
  | some e =>
    rw [settle_of_some hentry] at hsettle
    obtain rfl := Option.some.inj hsettle
    intro i hi
    have hne : i ≠ packetID := by
      rintro rfl
      simp [entry, lookup_erase] at hi
    refine SendWindow.mem_held_release.mpr ⟨h i ?_, hne⟩
    simpa [entry, lookup_erase, hne] using hi

lemma HoldsTokens.handlePubRec (reasonCode : Nat) :
    (s.handlePubRec version packetID reasonCode).HoldsTokens := by
  intro i hi
  refine h i fun hnone => hi ?_
  have hnone : s.inflight.lookup .outbound i = none := hnone
  simp only [entry, OutSession.handlePubRec, updateState]
  split
  · exact hnone
  rename_i e he
  have hne : i ≠ packetID := by
    rintro rfl
    exact nomatch he.symm.trans hnone
  rw [lookup_put, if_neg fun h => hne h.2, hnone]

lemma HoldsTokens.disconnect : (s.disconnect cfg version).HoldsTokens :=
  h.congr disconnect_eq.1 (congrArg SendWindow.held disconnect_eq.2)

/-- Every event keeps a token with every message in flight. -/
lemma HoldsTokens.step (event : Event) : (s.step cfg version event).HoldsTokens := by
  have hsettled (i : Nat) (hsome : (s.settle i).isSome) :
      (((s.settle i).getD (s.disconnect cfg version)).drainOnePending cfg).HoldsTokens := by
    obtain ⟨s', hs'⟩ := Option.isSome_iff_exists.mp hsome
    rw [hs']
    exact (h.settle hs').drainOnePending
  have hfailed (i : Nat) (hnone : ¬ (s.settle i).isSome) :
      ((s.settle i).getD (s.disconnect cfg version)).HoldsTokens := by
    rw [Option.not_isSome_iff_eq_none.1 hnone]
    exact h.disconnect
  cases event with
  | send msg =>
    simp only [OutSession.step]
    split
    · exact h.deliver msg
    · exact h.congr (enqueueOffline_eq msg).1 (congrArg SendWindow.held (enqueueOffline_eq msg).2)
  | receive packet =>
    simp only [OutSession.step, handle]
    split
    · cases packet with
      | puback i | pubcomp i =>
        simp only [react]
        split
        · exact hsettled i ‹_›
        · exact hfailed i ‹_›
      | pubrec i reasonCode => exact h.handlePubRec reasonCode
    · exact h

end

/-- In every run, as long as the connection lasts, an acknowledgement keeps the rules exactly if it conforms.
The tokens that it may return are there: every message in flight goes on holding one. -/
theorem rules_iff_conforms (cfg : SessionConfig) (version : Version) (s : OutSession)
    (events : List Event) :
    (s.HoldsTokens → (s.run cfg version events).HoldsTokens) ∧
      ((s.run cfg version events).connected = true →
        ∀ packet, (s.run cfg version events).Rules cfg version packet ↔
          (s.run cfg version events).Conforms packet) :=
  ⟨fun h => Transition.invariant_run (fun _ event h _ => h.step event) h
    (Transition.along_of_forall fun _ _ _ => trivial), rules_iff⟩

/-- A session that has just been connected. -/
def fresh : OutSession := { window := { capacity := 2, gen := 0 } }

/-- A client that keeps to no rules: a message sent to it with QoS 2 is given up on a PUBACK, on a
PUBCOMP that no PUBREC preceded and on one that follows a refusal; and a PUBREC for an identifier that
was never sent, or was sent with QoS 1, is answered with PUBREL. A PUBACK for an identifier that was never
sent ends the connection. -/
theorem wrong_acknowledgement_accepted :
    let sent (qos : Nat) := fresh.run {} .v5 [.send { topic := "a", qos }]
    (sent 2).entry 1 ≠ none ∧ ((sent 2).react {} .v5 (.puback 1)).entry 1 = none ∧
      ((sent 2).react {} .v5 (.pubcomp 1)).entry 1 = none ∧
      (((sent 2).react {} .v5 (.pubrec 1 0x97)).react {} .v5 (.pubcomp 1)).entry 1 = none ∧
      .pubrel 1 ∈ ((sent 1).react {} .v5 (.pubrec 1 0)).sent ∧
      .pubrel 7 ∈ (fresh.react {} .v5 (.pubrec 7 0)).sent ∧
      (fresh.handle {} .v5 (.puback 7)).connected = false ∧
      ¬ (sent 2).Rules {} .v5 (.puback 1) := by
  refine ⟨by decide +kernel, by decide +kernel, by decide +kernel, by decide +kernel,
    by decide +kernel, by decide +kernel, by decide +kernel, fun hrules => ?_⟩
  obtain ⟨e, he, hqos⟩ := (rules_iff (by decide +kernel) (.puback 1)).mp hrules
  have hentry : (fresh.run {} .v5 [.send { topic := "a", qos := 2 }]).entry 1 =
      some { message := { topic := "a", qos := 2 } } := by decide +kernel
  rw [← Option.some.inj (hentry.symm.trans he)] at hqos
  exact absurd hqos (by decide)

end OutSession

end FluxMQ.Mqtt
