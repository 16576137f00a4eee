import FluxMQ.Delivery.Mqtt
import FluxMQ.Mqtt.Inflight

/-!
# The custody of messages for a client

What a broker owes a client with a persistent session, whatever the containers it keeps the messages
in: a message that was accepted is in custody until the client acknowledges it or it expires.

Messages in custody either wait, in the order they were accepted, or are in flight under a packet
identifier. `Custody.Step` lists what may happen to them; moving a message from one container to
another is not on the list.

* `Custody.Accounted`, `NoneResent`, `InOrder`: what is owed.
* `Custody.Sound.steps`: it is kept by every sequence of steps.
-/

namespace FluxMQ.Mqtt

open Function List

/-- A message accepted for a session. -/
structure Accepted where
  /-- How many were accepted before it. -/
  serial : Nat
  msg : DeliveryMessage
  qos_pos : 0 < msg.qos
  deriving DecidableEq

/-- What happens to the messages of a session. -/
inductive SessionEvent where
  | accepted (m : Accepted)
  /-- It waits for a client that is offline. -/
  | queued (m : Accepted)
  /-- It is written to the connection, for the first time or again. -/
  | published (m : Accepted) (dup : Bool)
  /-- The client has received a message with QoS 2. -/
  | received (m : Accepted)
  | acked (m : Accepted)
  deriving DecidableEq

/-- The message an event is about. -/
def SessionEvent.message : SessionEvent → Accepted
  | .accepted m | .queued m | .published m _ | .received m | .acked m => m

/-- What the client has acknowledged is not sent again. A client treats what comes after its
acknowledgement as a new message, whether or not it is marked as a duplicate. -/
def NoneResent (log : List SessionEvent) : Prop :=
  log.Pairwise fun first later => ∀ m dup,
    first = .acked m ∨ first = .received m → later ≠ .published m dup

/-- What has waited for a client that was offline is first sent in the order of acceptance. -/
def InOrder (log : List SessionEvent) : Prop :=
  log.Pairwise fun first later => ∀ m m',
    first = .published m false → later = .published m' false →
    .queued m ∈ log → .queued m' ∈ log → m.serial < m'.serial

/-- The messages in custody and what has happened to them. -/
structure Custody where
  now : Time
  inflight : Nat → Option (InflightMessage Accepted)
  waiting : List Accepted
  /-- How many messages were accepted. -/
  count : Nat
  log : List SessionEvent

namespace Custody

/-- What may happen. -/
inductive Step : Custody → Custody → Prop where
  | pass (c : Custody) (d : Nat) : Step c { c with now := c.now + d }
  /-- A message is accepted and waits. -/
  | arrive (c : Custody) (m : Accepted) (hserial : m.serial = c.count) :
    Step c { c with
      waiting := c.waiting ++ [m], count := c.count + 1, log := c.log ++ [.accepted m] }
  /-- A message is accepted and sent at once. -/
  | enter (c : Custody) (m : Accepted) (packetID : Nat) (hserial : m.serial = c.count)
      (hfree : c.inflight packetID = none) :
    Step c { c with
      inflight := Function.update c.inflight packetID (some { message := m })
      count := c.count + 1
      log := c.log ++ [.accepted m, .published m false] }
  /-- It turns out that a message waits for a client that is offline. -/
  | queue (c : Custody) (m : Accepted) (hm : m ∈ c.waiting) :
    Step c { c with log := c.log ++ [.queued m] }
  | expire (c : Custody) (before : List Accepted) (m : Accepted) (after : List Accepted)
      (hwaiting : c.waiting = before ++ m :: after) (hm : m.msg.expired c.now = true) :
    Step c { c with waiting := before ++ after }
  /-- The message that has waited longest is sent. -/
  | send (c : Custody) (m : Accepted) (rest : List Accepted) (packetID : Nat)
      (hwaiting : c.waiting = m :: rest) (hfree : c.inflight packetID = none) :
    Step c { c with
      waiting := rest
      inflight := Function.update c.inflight packetID (some { message := m })
      log := c.log ++ [.published m false] }
  | ack (c : Custody) (packetID : Nat) (e : InflightMessage Accepted)
      (he : c.inflight packetID = some e) :
    Step c { c with
      inflight := Function.update c.inflight packetID none
      log := c.log ++ [.acked e.message] }
  | receive (c : Custody) (packetID : Nat) (e : InflightMessage Accepted)
      (he : c.inflight packetID = some e) :
    Step c { c with
      inflight := Function.update c.inflight packetID (some { e with state := .pubRecReceived })
      log := c.log ++ if e.message.msg.qos = 2 then [.received e.message] else [] }
  /-- A message in flight is sent again, unless PUBREL is what is sent in its place. -/
  | resend (c : Custody) (packetID : Nat) (e : InflightMessage Accepted)
      (he : c.inflight packetID = some e)
      (hstate : ¬ (e.message.msg.qos = 2 ∧ e.state = .pubRecReceived)) :
    Step c { c with log := c.log ++ [.published e.message true] }

/-- Some steps lead from one state to another. -/
abbrev Steps : Custody → Custody → Prop := Relation.ReflTransGen Step

/-- A message is in flight. -/
def InFlight (c : Custody) (m : Accepted) : Prop :=
  ∃ packetID e, c.inflight packetID = some e ∧ e.message = m

/-- Every message that was accepted, and neither acknowledged nor has expired, is in custody. -/
def Accounted (c : Custody) : Prop :=
  ∀ m, .accepted m ∈ c.log → .acked m ∉ c.log → m.msg.expired c.now = false →
    m ∈ c.waiting ∨ c.InFlight m

/-- What holds of the messages in custody, apart from there being none missing. -/
structure Tidy (c : Custody) : Prop where
  noneResent : NoneResent c.log
  inOrder : InOrder c.log
  /-- Messages wait in the order of their acceptance. -/
  sorted : c.waiting.Pairwise fun a b => a.serial < b.serial
  waiting_lt : ∀ m ∈ c.waiting, m.serial < c.count
  inflight_lt : ∀ m, c.InFlight m → m.serial < c.count
  log_lt : ∀ event ∈ c.log, event.message.serial < c.count
  /-- No message is in two places. -/
  apart : ∀ m, c.InFlight m → m ∉ c.waiting
  single : ∀ i j e e', c.inflight i = some e → c.inflight j = some e' → e.message = e'.message →
    i = j
  /-- What was acknowledged is not in custody any more. -/
  acked : ∀ m, .acked m ∈ c.log → m ∉ c.waiting ∧ ¬ c.InFlight m
  /-- What the client has received is at most completed. -/
  received : ∀ m, .received m ∈ c.log → m ∉ c.waiting ∧
    ∀ packetID e, c.inflight packetID = some e → e.message = m →
      m.msg.qos = 2 ∧ e.state = .pubRecReceived
  published : ∀ m dup, .published m dup ∈ c.log → m ∉ c.waiting
  /-- What has waited for a client that was offline is sent before all that still waits. -/
  ahead : ∀ m, .published m false ∈ c.log → .queued m ∈ c.log → ∀ b ∈ c.waiting, m.serial < b.serial

/-- What is owed, with what it rests on. -/
structure Sound (c : Custody) : Prop extends c.Tidy where
  accounted : c.Accounted

/-! ### Events that are added to a log -/

section

variable {log : List SessionEvent} {m : Accepted}

lemma noneResent_append_published {dup : Bool} (h : NoneResent log) (hacked : .acked m ∉ log)
    (hreceived : .received m ∉ log) : NoneResent (log ++ [.published m dup]) := by
  refine pairwise_append.2 ⟨h, pairwise_singleton _ _, ?_⟩
  rintro first hfirst _ hlater m' dup' hend hpub
  obtain rfl := mem_singleton.1 hlater
  obtain ⟨rfl, -⟩ := SessionEvent.published.inj hpub
  rcases hend with rfl | rfl
  · exact hacked hfirst
  · exact hreceived hfirst

lemma noneResent_append {event : SessionEvent} (h : NoneResent log)
    (hevent : ∀ m dup, event ≠ .published m dup) : NoneResent (log ++ [event]) := by
  refine pairwise_append.2 ⟨h, pairwise_singleton _ _, ?_⟩
  rintro first - _ hlater m' dup' - hpub
  obtain rfl := mem_singleton.1 hlater
  exact hevent m' dup' hpub

/-- Nothing was first sent behind the event, and the event sends nothing out of order. -/
lemma inOrder_append {event : SessionEvent} (h : InOrder log)
    (hqueued : ∀ m, event = .queued m → .published m false ∉ log)
    (hpublished : ∀ m, event = .published m false → ∀ m₀, .published m₀ false ∈ log →
      .queued m₀ ∈ log → .queued m ∈ log → m₀.serial < m.serial) : InOrder (log ++ [event]) := by
  -- A message that was first sent earlier is not the one that is queued now.
  have hold : ∀ m₀, .published m₀ false ∈ log → .queued m₀ ∈ log ++ [event] → .queued m₀ ∈ log := by
    intro m₀ hpub hqueue
    rcases mem_append.1 hqueue with hqueue | hqueue
    · exact hqueue
    · exact absurd hpub (hqueued m₀ (mem_singleton.1 hqueue).symm)
  refine pairwise_append.2 ⟨?_, pairwise_singleton _ _, ?_⟩
  · refine h.imp_of_mem ?_
    intro first later hfirst hlater himp m m' hm hm' hq hq'
    subst hm hm'
    exact himp m m' rfl rfl (hold m hfirst hq) (hold m' hlater hq')
  intro first hfirst later hlater m m' hm hm' hq hq'
  obtain rfl := mem_singleton.1 hlater
  subst hm hm'
  refine hpublished m' rfl m hfirst (hold m hfirst hq) ?_
  simpa using hq'

end

/-! ### Packet identifiers -/

variable {c c' : Custody} {m : Accepted} {packetID : Nat}

lemma inFlight_update {e : InflightMessage Accepted} {c : Custody}
    (hfree : c.inflight packetID = none) {waiting : List Accepted} {count : Nat}
    {log : List SessionEvent} :
    InFlight { c with
      inflight := update c.inflight packetID (some e), waiting, count, log } m ↔
        m = e.message ∨ c.InFlight m := by
  constructor
  · rintro ⟨i, e', he', rfl⟩
    by_cases hi : i = packetID
    · subst hi
      simp only [update_self, Option.some.injEq] at he'
      exact .inl (he' ▸ rfl)
    · simp only [update_of_ne hi] at he'
      exact .inr ⟨i, e', he', rfl⟩
  · rintro (rfl | ⟨i, e', he', rfl⟩)
    · exact ⟨packetID, e, by simp, rfl⟩
    · have hi : i ≠ packetID := fun heq => by simp [heq, hfree] at he'
      exact ⟨i, e', by simpa [update_of_ne hi] using he', rfl⟩

lemma single_update {e : InflightMessage Accepted} (h : c.Tidy)
    (hnew : ¬ c.InFlight e.message) (i j : Nat) (a b : InflightMessage Accepted)
    (ha : update c.inflight packetID (some e) i = some a)
    (hb : update c.inflight packetID (some e) j = some b)
    (hab : a.message = b.message) : i = j := by
  by_cases hi : i = packetID <;> by_cases hj : j = packetID
  · exact hi.trans hj.symm
  · rw [hi, update_self, Option.some.injEq] at ha
    rw [update_of_ne hj] at hb
    exact absurd ⟨j, b, hb, by rw [ha, hab]⟩ hnew
  · rw [update_of_ne hi] at ha
    rw [hj, update_self, Option.some.injEq] at hb
    exact absurd ⟨i, a, ha, by rw [hb, hab]⟩ hnew
  · rw [update_of_ne hi] at ha
    rw [update_of_ne hj] at hb
    exact h.single i j a b ha hb hab

/-! ### What keeps the messages tidy -/

namespace Tidy

section

variable (h : c.Tidy)
include h

/-- The number of a message is used before the message is logged. -/
lemma log_lt_append {new : SessionEvent} (hnew : new.message.serial < c.count) :
    ∀ event ∈ c.log ++ [new], event.message.serial < c.count := by
  intro event he
  rcases mem_append.1 he with he | he
  · exact h.log_lt event he
  · rwa [mem_singleton.1 he]

/-- What is logged as sent does not wait. -/
lemma published_append {dup : Bool} (hwaiting : m ∉ c.waiting) :
    ∀ a dup', .published a dup' ∈ c.log ++ [.published m dup] → a ∉ c.waiting := by
  intro a dup' ha
  rcases mem_append.1 ha with ha | ha
  · exact h.published a dup' ha
  · obtain ⟨rfl, -⟩ := SessionEvent.published.inj (mem_singleton.1 ha)
    exact hwaiting

lemma pass (now : Time) : Tidy { c with now } :=
  { h with }

/-- Some of the waiting messages are taken out. -/
lemma leave {waiting : List Accepted} (hsub : waiting.Sublist c.waiting) :
    Tidy { c with waiting } where
  __ := h
  sorted := h.sorted.sublist hsub
  waiting_lt := fun m hm => h.waiting_lt m (hsub.subset hm)
  apart := fun m hm hwaiting => h.apart m hm (hsub.subset hwaiting)
  acked := fun m hm => ⟨fun hwaiting => (h.acked m hm).1 (hsub.subset hwaiting), (h.acked m hm).2⟩
  received := fun m hm =>
    ⟨fun hwaiting => (h.received m hm).1 (hsub.subset hwaiting), (h.received m hm).2⟩
  published := fun m dup hm hwaiting => h.published m dup hm (hsub.subset hwaiting)
  ahead := fun m hpub hqueue b hb => h.ahead m hpub hqueue b (hsub.subset hb)

/-- The log goes on with an event that neither publishes nor ends anything. -/
lemma append {event : SessionEvent} (count : Nat) (hcount : c.count ≤ count)
    (hlt : event.message.serial < count) (hpub : ∀ m dup, event ≠ .published m dup)
    (hqueued : ∀ m, event = .queued m → .published m false ∉ c.log) (hacked : ∀ m, event ≠ .acked m)
    (hreceived : ∀ m, event ≠ .received m) : Tidy { c with count, log := c.log ++ [event] } where
  noneResent := noneResent_append h.noneResent hpub
  inOrder := inOrder_append h.inOrder hqueued fun m heq => absurd heq (hpub m false)
  __ := h
  waiting_lt := fun m hm => (h.waiting_lt m hm).trans_le hcount
  inflight_lt := fun m hm => (h.inflight_lt m hm).trans_le hcount
  log_lt := by
    intro e he
    rcases mem_append.1 he with he | he
    · exact (h.log_lt e he).trans_le hcount
    · rwa [mem_singleton.1 he]
  acked := by
    intro m hm
    rcases mem_append.1 hm with hm | hm
    · exact h.acked m hm
    · exact absurd (mem_singleton.1 hm).symm (hacked m)
  received := by
    intro m hm
    rcases mem_append.1 hm with hm | hm
    · exact h.received m hm
    · exact absurd (mem_singleton.1 hm).symm (hreceived m)
  published := by
    intro m dup hm
    rcases mem_append.1 hm with hm | hm
    · exact h.published m dup hm
    · exact absurd (mem_singleton.1 hm).symm (hpub m dup)
  ahead := by
    intro m hm hq
    rcases mem_append.1 hm with hm | hm
    · rcases mem_append.1 hq with hq | hq
      · exact h.ahead m hm hq
      · exact absurd hm (hqueued m (mem_singleton.1 hq).symm)
    · exact absurd (mem_singleton.1 hm).symm (hpub m false)

/-- The number of a new message is larger than all others. -/
lemma accept (hserial : m.serial = c.count) :
    Tidy { c with count := c.count + 1, log := c.log ++ [.accepted m] } :=
  h.append _ (Nat.le_succ _) (by simp [SessionEvent.message, hserial]) (by simp) (by simp) (by simp)
    (by simp)

/-- What has no part in the log yet. -/
lemma not_mem_log {event : SessionEvent} (hserial : event.message.serial = c.count) :
    event ∉ c.log :=
  fun hmem => (h.log_lt event hmem).ne hserial

/-- A new message waits behind all others. -/
lemma arrive (hserial : m.serial = c.count) :
    Tidy { c with
      waiting := c.waiting ++ [m], count := c.count + 1, log := c.log ++ [.accepted m] } := by
  have h₁ := h.accept hserial
  -- Whatever else was logged was logged of an earlier message.
  have hold : ∀ event ∈ c.log ++ [.accepted m], (∀ a, event ≠ .accepted a) →
      event.message.serial < m.serial := by
    intro event he hne
    rcases mem_append.1 he with he | he
    · exact hserial ▸ h.log_lt event he
    · exact absurd (mem_singleton.1 he) (hne m)
  have hmem : ∀ {a : Accepted}, a ∈ c.waiting ++ [m] → a.serial < m.serial → a ∈ c.waiting := by
    intro a ha hlt
    rcases mem_append.1 ha with ha | ha
    · exact ha
    · exact absurd hlt (mem_singleton.1 ha ▸ lt_irrefl _)
  refine { h₁ with
    sorted := ?_, waiting_lt := ?_, apart := ?_, acked := ?_, received := ?_, published := ?_, ahead := ?_ }
  · refine pairwise_append.2 ⟨h.sorted, pairwise_singleton _ _, fun a ha b hb => ?_⟩
    rw [mem_singleton.1 hb, hserial]
    exact h.waiting_lt a ha
  · intro a ha
    rcases mem_append.1 ha with ha | ha
    · exact h₁.waiting_lt a ha
    · rw [mem_singleton.1 ha, hserial]
      exact Nat.lt_succ_self _
  · exact fun a ha hwaiting => h.apart a ha (hmem hwaiting (hserial ▸ h.inflight_lt a ha))
  · exact fun a ha =>
      ⟨fun hwaiting => (h₁.acked a ha).1 (hmem hwaiting (hold _ ha (by simp))), (h₁.acked a ha).2⟩
  · exact fun a ha =>
      ⟨fun hwaiting => (h₁.received a ha).1 (hmem hwaiting (hold _ ha (by simp))),
        (h₁.received a ha).2⟩
  · exact fun a dup ha hwaiting => h₁.published a dup ha (hmem hwaiting (hold _ ha (by simp)))
  · intro a ha hqueue b hb
    rcases mem_append.1 hb with hb | hb
    · exact h₁.ahead a ha hqueue b hb
    · rw [mem_singleton.1 hb]
      exact hold _ ha (by simp)

/-- A message that nothing else is known of goes into flight under a free identifier. -/
lemma put (hfree : c.inflight packetID = none) (hm : m.serial < c.count)
    (hwaiting : m ∉ c.waiting) (hlight : ¬ c.InFlight m) (hacked : .acked m ∉ c.log)
    (hreceived : .received m ∉ c.log)
    (hbehind : .queued m ∈ c.log → ∀ a, .published a false ∈ c.log → .queued a ∈ c.log →
      a.serial < m.serial) (hahead : .queued m ∈ c.log → ∀ b ∈ c.waiting, m.serial < b.serial) :
    Tidy { c with
      inflight := update c.inflight packetID (some { message := m })
      log := c.log ++ [.published m false] } where
  noneResent := noneResent_append_published h.noneResent hacked hreceived
  inOrder := by
    refine inOrder_append h.inOrder (by simp) ?_
    rintro _ heq a hpub hqueue hqueued
    obtain ⟨rfl, -⟩ := SessionEvent.published.inj heq
    exact hbehind hqueued a hpub hqueue
  __ := h
  inflight_lt := by
    intro a ha
    rcases (inFlight_update hfree).1 ha with rfl | ha
    · exact hm
    · exact h.inflight_lt a ha
  log_lt := h.log_lt_append hm
  apart := by
    intro a ha
    rcases (inFlight_update hfree).1 ha with rfl | ha
    · exact hwaiting
    · exact h.apart a ha
  single := single_update h hlight
  acked := by
    intro a ha
    have hlog : .acked a ∈ c.log := by simpa using ha
    refine ⟨(h.acked a hlog).1, fun hin => ?_⟩
    rcases (inFlight_update hfree).1 hin with rfl | hin
    · exact hacked hlog
    · exact (h.acked a hlog).2 hin
  received := by
    intro a ha
    have hlog : .received a ∈ c.log := by simpa using ha
    refine ⟨(h.received a hlog).1, fun i e he hmsg => ?_⟩
    by_cases hi : i = packetID
    · subst hi
      simp only [update_self, Option.some.injEq] at he
      subst he hmsg
      exact absurd hlog hreceived
    · simp only [update_of_ne hi] at he
      exact (h.received a hlog).2 i e he hmsg
  published := h.published_append hwaiting
  ahead := by
    intro a ha hq
    have hlog : .queued a ∈ c.log := by simpa using hq
    rcases mem_append.1 ha with ha | ha
    · exact h.ahead a ha hlog
    · obtain ⟨rfl, -⟩ := SessionEvent.published.inj (mem_singleton.1 ha)
      exact hahead hlog

/-- A message is sent without having waited. -/
lemma enter (hserial : m.serial = c.count) (hfree : c.inflight packetID = none) :
    Tidy { c with
      inflight := update c.inflight packetID (some { message := m })
      count := c.count + 1
      log := c.log ++ [.accepted m, .published m false] } := by
  have hnew : ∀ event : SessionEvent, event.message = m → event ≠ .accepted m →
      event ∉ c.log ++ [.accepted m] := by
    intro event hevent hne hmem
    rcases mem_append.1 hmem with hmem | hmem
    · exact h.not_mem_log (hevent ▸ hserial) hmem
    · exact hne (mem_singleton.1 hmem)
  have h₂ := (h.accept hserial).put hfree (by simp [hserial])
    (fun hmem => (h.waiting_lt m hmem).ne hserial) (fun hin => (h.inflight_lt m hin).ne hserial)
    (hnew _ rfl (by simp)) (hnew _ rfl (by simp))
    (fun hq => absurd hq (hnew _ rfl (by simp))) (fun hq => absurd hq (hnew _ rfl (by simp)))
  simpa using h₂

/-- The message that has waited longest is sent. -/
lemma send {rest : List Accepted} (hwaiting : c.waiting = m :: rest)
    (hfree : c.inflight packetID = none) :
    Tidy { c with
      waiting := rest
      inflight := update c.inflight packetID (some { message := m })
      log := c.log ++ [.published m false] } := by
  have hmem : m ∈ c.waiting := hwaiting ▸ mem_cons_self
  have hsorted := h.sorted
  rw [hwaiting, pairwise_cons] at hsorted
  have hleave : Tidy { c with waiting := rest } :=
    h.leave (by rw [hwaiting]; exact sublist_cons_self m rest)
  refine hleave.put hfree (h.waiting_lt m hmem)
    (fun hrest => (hsorted.1 m hrest).ne rfl) (fun hin => h.apart m hin hmem)
    (fun ha => (h.acked m ha).1 hmem) (fun hr => (h.received m hr).1 hmem) ?_ ?_
  · exact fun _ a hpub hqueue => h.ahead a hpub hqueue m hmem
  · exact fun _ => hsorted.1

end

section

variable (h : c.Tidy) {e : InflightMessage Accepted} (he : c.inflight packetID = some e)
include h he

/-- The client acknowledges a message in flight. -/
lemma ack :
    Tidy { c with
      inflight := update c.inflight packetID none
      log := c.log ++ [.acked e.message] } := by
  -- What is still in flight was in flight before, and is not the message acknowledged.
  have hin : ∀ i a, update c.inflight packetID none i = some a →
      c.inflight i = some a ∧ a.message ≠ e.message := by
    intro i a ha
    by_cases hi : i = packetID
    · simp [hi] at ha
    · rw [update_of_ne hi] at ha
      exact ⟨ha, fun heq => hi (h.single i packetID a e ha he heq)⟩
  have hlight : ∀ a, InFlight { c with
      inflight := update c.inflight packetID none
      log := c.log ++ [.acked e.message] } a → c.InFlight a ∧ a ≠ e.message := by
    rintro _ ⟨i, a, ha, rfl⟩
    exact ⟨⟨i, a, (hin i a ha).1, rfl⟩, (hin i a ha).2⟩
  have he' : c.InFlight e.message := ⟨packetID, e, he, rfl⟩
  refine ⟨noneResent_append h.noneResent (by simp), inOrder_append h.inOrder (by simp) (by simp),
    h.sorted, h.waiting_lt, fun a ha => h.inflight_lt a (hlight a ha).1, ?_,
    fun a ha => h.apart a (hlight a ha).1,
    fun i j a b ha hb => h.single i j a b (hin i a ha).1 (hin j b hb).1, ?_, ?_, ?_, ?_⟩
  · exact h.log_lt_append (h.inflight_lt _ he')
  · intro a ha
    rcases mem_append.1 ha with ha | ha
    · exact ⟨(h.acked a ha).1, fun hin => (h.acked a ha).2 (hlight a hin).1⟩
    · obtain rfl := SessionEvent.acked.inj (mem_singleton.1 ha)
      exact ⟨h.apart _ he', fun hin => (hlight _ hin).2 rfl⟩
  · intro a ha
    have hlog : .received a ∈ c.log := by simpa using ha
    exact ⟨(h.received a hlog).1, fun i b hb => (h.received a hlog).2 i b (hin i b hb).1⟩
  · intro a dup ha
    exact h.published a dup (by simpa using ha)
  · intro a ha hq
    exact h.ahead a (by simpa using ha) (by simpa using hq)

/-- The exchange of a message with QoS 2 enters its second half. -/
lemma turn :
    Tidy { c with
      inflight := update c.inflight packetID (some { e with state := .pubRecReceived }) } := by
  have hin : ∀ i a, update c.inflight packetID
      (some { e with state := .pubRecReceived }) i = some a →
        ∃ b, c.inflight i = some b ∧ b.message = a.message ∧
          (b.state = .pubRecReceived → a.state = .pubRecReceived) := by
    intro i a ha
    by_cases hi : i = packetID
    · subst hi
      simp only [update_self, Option.some.injEq] at ha
      exact ⟨e, he, ha ▸ rfl, fun _ => ha ▸ rfl⟩
    · rw [update_of_ne hi] at ha
      exact ⟨a, ha, rfl, id⟩
  have hlight : ∀ a, InFlight { c with
      inflight := update c.inflight packetID
        (some { e with state := .pubRecReceived }) } a → c.InFlight a := by
    rintro _ ⟨i, a, ha, rfl⟩
    obtain ⟨b, hb, hmsg, -⟩ := hin i a ha
    exact ⟨i, b, hb, hmsg⟩
  refine { h with
    inflight_lt := fun a ha => h.inflight_lt a (hlight a ha)
    apart := fun a ha => h.apart a (hlight a ha), single := ?_, received := ?_
    acked := fun a ha => ⟨(h.acked a ha).1, fun hin => (h.acked a ha).2 (hlight a hin)⟩ }
  · intro i j a b ha hb hab
    obtain ⟨a', ha', hmsg, -⟩ := hin i a ha
    obtain ⟨b', hb', hmsg', -⟩ := hin j b hb
    exact h.single i j a' b' ha' hb' (hmsg.trans (hab.trans hmsg'.symm))
  · intro a ha
    refine ⟨(h.received a ha).1, fun i b hb hmsg => ?_⟩
    obtain ⟨b', hb', hmsg', hstate⟩ := hin i b hb
    obtain ⟨hqos, hb'⟩ := (h.received a ha).2 i b' hb' (hmsg'.trans hmsg)
    exact ⟨hqos, hstate hb'⟩

/-- The client has received a message in flight. -/
lemma receive :
    Tidy { c with
      inflight := update c.inflight packetID (some { e with state := .pubRecReceived })
      log := c.log ++ if e.message.msg.qos = 2 then [.received e.message] else [] } := by
  have h₁ := h.turn he
  by_cases hqos : e.message.msg.qos = 2
  · rw [if_pos hqos]
    have he' : c.InFlight e.message := ⟨packetID, e, he, rfl⟩
    refine ⟨noneResent_append h.noneResent (by simp), inOrder_append h.inOrder (by simp) (by simp),
      h.sorted, h.waiting_lt, h₁.inflight_lt, ?_, h₁.apart, h₁.single,
      fun a ha => h₁.acked a (by simpa using ha), ?_,
      fun a dup ha => h.published a dup (by simpa using ha),
      fun a ha hq => h.ahead a (by simpa using ha) (by simpa using hq)⟩
    · exact h.log_lt_append (h.inflight_lt _ he')
    intro a ha
    rcases mem_append.1 ha with ha | ha
    · exact h₁.received a ha
    obtain rfl := SessionEvent.received.inj (mem_singleton.1 ha)
    refine ⟨h.apart _ he', fun i b hb hmsg => ?_⟩
    have hi : i = packetID := h₁.single i packetID b _ hb (update_self ..) hmsg
    subst hi
    simp only [update_self, Option.some.injEq] at hb
    exact ⟨hqos, hb ▸ rfl⟩
  · simpa [hqos] using h₁

/-- A message in flight is sent again. -/
lemma resend (hstate : ¬ (e.message.msg.qos = 2 ∧ e.state = .pubRecReceived)) :
    Tidy { c with log := c.log ++ [.published e.message true] } := by
  have he' : c.InFlight e.message := ⟨packetID, e, he, rfl⟩
  exact { h with
    noneResent := noneResent_append_published h.noneResent (fun ha => (h.acked _ ha).2 he')
      (fun hr => hstate ((h.received _ hr).2 packetID e he rfl))
    inOrder := inOrder_append h.inOrder (by simp) (by simp)
    log_lt := h.log_lt_append (h.inflight_lt _ he')
    acked := fun a ha => h.acked a (by simpa using ha)
    received := fun a ha => h.received a (by simpa using ha)
    published := h.published_append (h.apart _ he')
    ahead := fun a ha hq => h.ahead a (by simpa using ha) (by simpa using hq) }

end

end Tidy

/-! ### Every step -/

lemma Step.tidy (h : Step c c') (hc : c.Tidy) : c'.Tidy := by
  cases h with
  | pass d => exact hc.pass _
  | arrive m hserial => exact hc.arrive hserial
  | enter m packetID hserial hfree => exact hc.enter hserial hfree
  | queue m hm =>
    refine hc.append c.count le_rfl (hc.waiting_lt m hm) (by simp) ?_ (by simp) (by simp)
    rintro _ heq hpub
    obtain rfl := SessionEvent.queued.inj heq
    exact hc.published _ _ hpub hm
  | expire before m after hwaiting hm =>
    refine hc.leave ?_
    rw [hwaiting]
    exact List.Sublist.append_left (sublist_cons_self m after) before
  | send m rest packetID hwaiting hfree => exact hc.send hwaiting hfree
  | ack packetID e he => exact hc.ack he
  | receive packetID e he => exact hc.receive he
  | resend packetID e he hstate => exact hc.resend he hstate

/-- What has expired stays so. -/
lemma expired_mono {msg : DeliveryMessage} {now later : Time} (hle : now ≤ later)
    (h : msg.expired later = false) : msg.expired now = false := by
  unfold DeliveryMessage.expired at h ⊢
  split
  · rename_i t ht
    simp only [ht, decide_eq_false_iff_not, not_lt] at h ⊢
    exact hle.trans h
  · rfl

/-- A message leaves custody only when it is acknowledged or has expired. -/
lemma Step.accounted (h : Step c c') (hc : c.Accounted) : c'.Accounted := by
  cases h with
  | pass d =>
    intro m hm hacked hexpired
    exact hc m hm hacked (expired_mono (Int.le_add_of_nonneg_right (Int.natCast_nonneg d)) hexpired)
  | arrive m hserial =>
    intro a ha hacked hexpired
    rcases mem_append.1 ha with ha | ha
    · refine (hc a ha (fun h => hacked (by simp [h])) hexpired).imp ?_ id
      exact fun h => mem_append_left _ h
    · obtain rfl := SessionEvent.accepted.inj (mem_singleton.1 ha)
      exact .inl (by simp)
  | enter m packetID hserial hfree =>
    intro a ha hacked hexpired
    rw [inFlight_update hfree]
    rcases mem_append.1 ha with ha | ha
    · exact (hc a ha (fun h => hacked (by simp [h])) hexpired).imp id .inr
    · exact .inr (.inl (by simpa using ha))
  | queue m hm | resend packetID e he hstate =>
    intro a ha hacked hexpired
    exact hc a (by simpa using ha) (fun h => hacked (by simp [h])) hexpired
  | expire before m after hwaiting hm =>
    intro a ha hacked hexpired
    refine (hc a ha hacked hexpired).imp (fun h => ?_) id
    -- The message that is dropped is not one that is missed.
    have hne : a ≠ m := fun heq => by simp [heq, hm] at hexpired
    rw [hwaiting] at h
    simpa [hne] using h
  | send m rest packetID hwaiting hfree =>
    intro a ha hacked hexpired
    rw [inFlight_update hfree]
    rcases hc a (by simpa using ha) (fun h => hacked (by simp [h])) hexpired with h | h
    · rw [hwaiting] at h
      rcases mem_cons.1 h with rfl | h
      · exact .inr (.inl rfl)
      · exact .inl h
    · exact .inr (.inr h)
  | ack packetID e he =>
    intro a ha hacked hexpired
    refine (hc a (by simpa using ha) (fun h => hacked (by simp [h])) hexpired).imp id ?_
    rintro ⟨i, b, hb, rfl⟩
    have hi : i ≠ packetID := by
      rintro rfl
      obtain rfl := Option.some.inj (he.symm.trans hb)
      exact hacked (by simp)
    exact ⟨i, b, by simpa [update_of_ne hi] using hb, rfl⟩
  | receive packetID e he =>
    intro a ha hacked hexpired
    have ha : .accepted a ∈ c.log := by
      rcases mem_append.1 ha with ha | ha
      · exact ha
      · split at ha <;> simp at ha
    refine (hc a ha (fun h => hacked (mem_append_left _ h)) hexpired).imp id ?_
    rintro ⟨i, b, hb, rfl⟩
    by_cases hi : i = packetID
    · subst hi
      obtain rfl := Option.some.inj (he.symm.trans hb)
      exact ⟨i, _, update_self .., rfl⟩
    · exact ⟨i, b, by simpa [update_of_ne hi] using hb, rfl⟩

/-- What is owed is kept by every sequence of steps. -/
theorem Sound.steps (hc : c.Sound) (h : Steps c c') : c'.Sound := by
  induction h with
  | refl => exact hc
  | tail _ hstep ih => exact ⟨hstep.tidy ih.toTidy, hstep.accounted ih.accounted⟩

/-- Nothing is owed for a session that has accepted nothing. -/
lemma sound_empty (now : Time) : Sound ⟨now, fun _ => none, [], 0, []⟩ where
  noneResent := .nil
  inOrder := .nil
  sorted := .nil
  waiting_lt := by simp
  inflight_lt := by simp [InFlight]
  log_lt := by simp
  apart := by simp
  single := by simp
  acked := by simp
  received := by simp
  published := by simp
  ahead := by simp
  accounted := by simp [Accounted]

/-- Messages that wait turn out to wait for a client that is offline. -/
lemma steps_queue (c : Custody) (msgs : List Accepted) (h : ∀ m ∈ msgs, m ∈ c.waiting) :
    Steps c { c with log := c.log ++ msgs.map .queued } := by
  induction msgs generalizing c with
  | nil => simpa using Relation.ReflTransGen.refl
  | cons m msgs ih =>
    have hrest := ih { c with log := c.log ++ [.queued m] }
      fun m' hm' => h m' (mem_cons_of_mem m hm')
    refine Relation.ReflTransGen.head (Step.queue c m (h m mem_cons_self)) ?_
    simpa using hrest

end Custody

end FluxMQ.Mqtt
