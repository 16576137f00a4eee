import FluxMQ.Broker.IdentityCache
import FluxMQ.Mqtt.SessionIdentity

/-!
# On whose identity the broker decides

`AuthEngine` (`broker/auth.go`) and the way the front ends use it: HTTP (`server/http/server.go`), CoAP
(`server/coap/server.go`), AMQP 0.9.1 (`amqp/broker/connection.go`, `channel.go`), AMQP 1.0
(`amqp1/broker/connection.go`, `link.go`) and MQTT (`mqtt/broker/session.go`, `v3_handler.go`,
`v5_handler.go`). `main` makes three engines, each with a cache of its own: one for MQTT, HTTP and CoAP, and
one for each version of AMQP.

* `authenticate`, `resolveID`, `setExternalID`: the engine.
* `Request`, `Caller`: what is authenticated, and what is open since then with the identity that it got.
* `Action`, `step`: callers authenticate, ask and end in any order, at any times. Every decision is recorded
  with the identity that the authorizer was asked about.
* `decided_on_identity`: under which conditions this is the caller's own.
* `decided_on_other`: what happens otherwise.

An authenticator and an authorizer are configured. What they answer is up to the environment, and so are the
hooks, which do not have a say in the identity of a decision. AMQP 0.9.1 connections of local principals do
not use the engine.
-/

namespace FluxMQ.Auth

open Mqtt.Identity (identityAllows)

/-! ### The engine -/

/-- What the authenticator answers. -/
inductive AuthnAnswer where
  | error
  | nothing
  | result (authenticated : Bool) (id : String)
  deriving Repr, DecidableEq

/-- `ValidateCredentials`: the identity if the credentials are accepted. -/
def validateCredentials : AuthnAnswer → Option String
  | .error | .nothing => none
  | .result authenticated id => if authenticated then some id else none

section

variable (c : IdentityCache) (now : Int) (clientID : String)

def authenticate (answer : AuthnAnswer) : IdentityCache × Option String :=
  match validateCredentials answer with
  | none => (c, none)
  | some externalID => (if externalID ≠ "" then c.store now clientID externalID else c, some externalID)

def externalID : IdentityCache × String :=
  let (c, external) := c.load now clientID
  (c, external.getD "")

def resolveID : IdentityCache × String :=
  let (c, id) := externalID c now clientID
  (c, if id ≠ "" then id else clientID)

lemma resolveID_of_load {id : String} (h : (c.load now clientID).2 = some id) (hid : id ≠ "") :
    resolveID c now clientID = ((c.load now clientID).1, id) := by
  cases hload : c.load now clientID with
  | mk c' found =>
    rw [hload] at h
    cases h
    simp [resolveID, externalID, hload, hid]

def setExternalID (externalID : String) : IdentityCache :=
  if externalID = "" then c.delete clientID else c.store now clientID externalID

end

/-! ### The front ends -/

/-- The engines that `main` makes. -/
inductive Engine where
  | mqtt
  | amqp
  | amqp091
  deriving Repr, DecidableEq

/-- What is authenticated with the credentials that it carries. -/
inductive Request where
  | http (clientID : String)
  | coap (clientID : String)
  | amqp1 (username containerID : String)
  | amqp091 (remote : String)
  deriving Repr, DecidableEq

/-- `nextConnectionID`, with the prefix of `PrefixedAMQP091ClientID`. -/
def amqp091ClientID (remote : String) (connectionSeq : Nat) : String :=
  "amqp091:" ++ (remote ++ "@" ++ connectionSeq.repr)

/-- `PrefixedAMQP1ClientID`. -/
def amqp1ClientID (containerID : String) : String :=
  "amqp:" ++ containerID

namespace Request

def engine : Request → Engine
  | .http _ | .coap _ => .mqtt
  | .amqp1 _ _ => .amqp
  | .amqp091 _ => .amqp091

/-- `connectionSeq` counts the connections of AMQP 0.9.1. -/
def count (connectionSeq : Nat) : Request → Nat
  | .amqp091 _ => connectionSeq + 1
  | _ => connectionSeq

/-- The client ID that it authenticates under. -/
def authenticatesAs (connectionSeq : Nat) : Request → String
  | .http clientID | .coap clientID => clientID
  | .amqp1 username _ => username
  | .amqp091 remote => amqp091ClientID remote connectionSeq

/-- The client ID that its permissions are asked under. -/
def asksAs (connectionSeq : Nat) : Request → String
  | .http clientID | .coap clientID => clientID
  | .amqp1 _ containerID => amqp1ClientID containerID
  | .amqp091 remote => amqp091ClientID remote connectionSeq

end Request

/-- An open request or connection. -/
structure Caller where
  number : Nat
  engine : Engine
  clientID : String
  /-- The MQTT session that the connection is attached to. -/
  session : Option Nat := none
  /-- The identity that it got when it authenticated. Only MQTT keeps it, with the session. -/
  externalID : String
  /-- When it authenticated. -/
  since : Int
  deriving Repr, DecidableEq

/-- The identity is forgotten at the end of a connection of AMQP 0.9.1, and in `handleDisconnect` of MQTT. -/
def Caller.forgets (c : Caller) (current : Bool) : Bool :=
  match c.session, c.engine with
  | some _, _ => current
  | none, .amqp091 => true
  | none, _ => false

/-- The authorizer was asked on behalf of a caller. -/
structure Decision where
  caller : Caller
  consulted : String
  deriving Repr, DecidableEq

/-- The engine with its callers, and what it has decided so far. -/
structure World where
  caches : Engine → IdentityCache
  /-- `Session.ExternalID`. -/
  sessions : AList (fun _ : Nat => String) := ∅
  /-- `connectionSeq` of the AMQP 0.9.1 broker. -/
  connectionSeq : Nat := 0
  callers : List Caller := []
  decisions : List Decision := []

/-- What happens at the engine. -/
inductive Action where
  | authenticate (number : Nat) (now : Int) (r : Request) (answer : AuthnAnswer)
  /-- A CONNECT that has been authenticated and passed the hook is attached to a session. -/
  | connect (number : Nat) (now : Int) (session : Nat) (clientID externalID : String) (requireBound : Bool)
  /-- A connection of AMQP looks its identity up for a hook. -/
  | lookUp (number : Nat) (now : Int)
  /-- `CanPublish` or `CanSubscribe`, `CanPublishIdentity` or `CanSubscribeIdentity`. -/
  | authorize (number : Nat) (now : Int)
  /-- The request or connection ends. A connection of MQTT is current unless another one has taken its
  place. -/
  | finish (number : Nat) (current : Bool)
  deriving Repr

namespace World

def caller (w : World) (number : Nat) : Option Caller :=
  w.callers.find? (·.number == number)

def setCache (w : World) (e : Engine) (c : IdentityCache) : World :=
  { w with caches := Function.update w.caches e c }

/-- The engine is asked to authenticate a request. -/
def authenticate (w : World) (number : Nat) (now : Int) (r : Request) (answer : AuthnAnswer) : World :=
  let seq := r.count w.connectionSeq
  let (c, externalID) := Auth.authenticate (w.caches r.engine) now (r.authenticatesAs seq) answer
  let w := { w.setCache r.engine c with connectionSeq := seq }
  match externalID with
  | none => w
  | some externalID =>
    { w with
      callers := { number, engine := r.engine, clientID := r.asksAs seq, externalID, since := now } ::
        w.callers }

/-- `BindExternalIdentity` lets the identity have the session. -/
def allows (w : World) (session : Nat) (externalID : String) (requireBound : Bool) : Bool :=
  match w.sessions.lookup session with
  | none => true
  | some bound => identityAllows bound externalID requireBound

/-- `BindExternalIdentity` when the session is claimed, `BindExternalID` when it is attached. -/
def connect (w : World) (number : Nat) (now : Int) (session : Nat) (clientID externalID : String)
    (requireBound : Bool) : World :=
  if !w.allows session externalID requireBound then w
  else
    { w.setCache .mqtt (setExternalID (w.caches .mqtt) now clientID externalID) with
      sessions := w.sessions.insert session externalID
      callers := { number, engine := .mqtt, clientID, session := some session, externalID, since := now } ::
        w.callers }

/-- `AuthorizationIdentity` of a session. -/
def authorizationIdentity (w : World) (session : Nat) (clientID : String) : String :=
  match w.sessions.lookup session with
  | none => clientID
  | some externalID => if externalID ≠ "" then externalID else clientID

/-- The authorizer is asked. -/
def authorize (w : World) (c : Caller) (now : Int) : World :=
  match c.session with
  | some session =>
    { w with decisions := ⟨c, w.authorizationIdentity session c.clientID⟩ :: w.decisions }
  | none =>
    let (cache, consulted) := resolveID (w.caches c.engine) now c.clientID
    { w.setCache c.engine cache with decisions := ⟨c, consulted⟩ :: w.decisions }

/-- A request or connection ends, with `Forget` or without. -/
def finish (w : World) (c : Caller) (current : Bool) : World :=
  let w := { w with callers := w.callers.filter (·.number != c.number) }
  if c.forgets current then w.setCache c.engine ((w.caches c.engine).delete c.clientID) else w

end World

/-- The engines at the start, with the options that they are all given. -/
def init (capacity ttl : Int) : World where
  caches _ := { capacity, ttl }

def step (w : World) : Action → World
  | .authenticate number now r answer =>
    if (w.caller number).isSome then w else w.authenticate number now r answer
  | .connect number now session clientID externalID requireBound =>
    if (w.caller number).isSome then w
    else w.connect number now session clientID externalID requireBound
  | .lookUp number now =>
    match w.caller number with
    | none => w
    | some c =>
      if c.engine = .mqtt then w
      else w.setCache c.engine (externalID (w.caches c.engine) now c.clientID).1
  | .authorize number now =>
    match w.caller number with
    | none => w
    | some c => w.authorize c now
  | .finish number current =>
    match w.caller number with
    | none => w
    | some c => w.finish c current

/-! ### Conditions -/

namespace World

variable (w : World) (e : Engine) (clientID : String)

/-- No open request or connection asks under the client ID. Connections of MQTT ask under the identity of
their session. -/
def Unused : Prop :=
  ∀ c ∈ w.callers, c.session = none → c.engine = e → c.clientID ≠ clientID

/-- An identity can be stored under the client ID without evicting that of an open request or connection. -/
def HasRoom : Prop :=
  clientID ∈ (w.caches e).order ∨ (w.caches e).capacity ≤ 0 ∨
    (w.caches e).order.entries.length < (w.caches e).capacity ∨
    ∀ oldest ∈ (w.caches e).order.entries.getLast?, w.Unused e oldest.1

/-- The time of an entry that was stored when the caller authenticated has not come. -/
def InTime (number : Nat) (now : Int) : Prop :=
  ∀ c ∈ w.callers, c.number = number → c.session = none →
    (w.caches c.engine).ttl ≤ 0 ∨ now ≤ c.since + (w.caches c.engine).ttl

instance : Decidable (w.Unused e clientID) :=
  inferInstanceAs (Decidable (∀ c ∈ w.callers, c.session = none → c.engine = e → c.clientID ≠ clientID))

instance : Decidable (w.HasRoom e clientID) :=
  inferInstanceAs (Decidable (_ ∨ _ ∨ _ ∨ ∀ oldest ∈ (w.caches e).order.entries.getLast?,
    w.Unused e oldest.1))

instance (number : Nat) (now : Int) : Decidable (w.InTime number now) :=
  inferInstanceAs (Decidable (∀ c ∈ w.callers, c.number = number → c.session = none → _))

end World

/-- The conditions under which the cache knows who an open request or connection is. -/
def Admissible (w : World) : Action → Prop
  | .authenticate _ _ r answer =>
    ∀ id ∈ validateCredentials answer, id ≠ "" ∧
      match r with
      | .http clientID | .coap clientID => w.Unused .mqtt clientID ∧ w.HasRoom .mqtt clientID
      -- The client ID under which an AMQP 1.0 connection asks is not the one it has authenticated under.
      | .amqp1 username containerID =>
        username = amqp1ClientID containerID ∧ w.Unused .amqp username ∧ w.HasRoom .amqp username
      | .amqp091 remote => w.HasRoom .amqp091 (amqp091ClientID remote (w.connectionSeq + 1))
  | .connect _ _ _ clientID externalID _ =>
    externalID ≠ "" ∧ w.Unused .mqtt clientID ∧ w.HasRoom .mqtt clientID
  | .lookUp number now | .authorize number now => w.InTime number now
  | .finish number current =>
    ∀ c ∈ w.callers, c.number = number → c.session.isSome → current = true → w.Unused .mqtt c.clientID

instance (w : World) : (a : Action) → Decidable (Admissible w a)
  | .authenticate _ _ (.http clientID) answer | .authenticate _ _ (.coap clientID) answer =>
    inferInstanceAs (Decidable (∀ id ∈ validateCredentials answer, id ≠ "" ∧
      w.Unused .mqtt clientID ∧ w.HasRoom .mqtt clientID))
  | .authenticate _ _ (.amqp1 username containerID) answer =>
    inferInstanceAs (Decidable (∀ id ∈ validateCredentials answer, id ≠ "" ∧
      username = amqp1ClientID containerID ∧ w.Unused .amqp username ∧ w.HasRoom .amqp username))
  | .authenticate _ _ (.amqp091 remote) answer =>
    inferInstanceAs (Decidable (∀ id ∈ validateCredentials answer, id ≠ "" ∧
      w.HasRoom .amqp091 (amqp091ClientID remote (w.connectionSeq + 1))))
  | .connect _ _ _ clientID externalID _ =>
    inferInstanceAs (Decidable (externalID ≠ "" ∧ w.Unused .mqtt clientID ∧ w.HasRoom .mqtt clientID))
  | .lookUp number now | .authorize number now => inferInstanceAs (Decidable (w.InTime number now))
  | .finish number current =>
    inferInstanceAs (Decidable (∀ c ∈ w.callers, c.number = number → c.session.isSome → current = true →
      w.Unused .mqtt c.clientID))

/-! ### The invariant -/

/-- The cache knows every open request or connection that has to be looked up. -/
structure Inv (w : World) : Prop where
  bound : ∀ c ∈ w.callers, c.externalID ≠ ""
  cached : ∀ c ∈ w.callers, c.session = none →
    (w.caches c.engine).order.lookup c.clientID = some ⟨c.externalID, (w.caches c.engine).expiry c.since⟩
  distinct : ∀ c ∈ w.callers, ∀ d ∈ w.callers, c.session = none → d.session = none →
    c.engine = d.engine → c.clientID = d.clientID → c.number = d.number
  session : ∀ c ∈ w.callers, ∀ p, c.session = some p → c.engine = .mqtt ∧
    w.sessions.lookup p = some c.externalID
  numbered : ∀ c ∈ w.callers, c.engine = .amqp091 →
    ∃ remote seq, c.clientID = amqp091ClientID remote seq ∧ seq ≤ w.connectionSeq
  decided : ∀ d ∈ w.decisions, d.consulted = d.caller.externalID

section

variable {w : World} {c : Caller} {number : Nat} {now : Int}

lemma mem_of_caller (h : w.caller number = some c) : c ∈ w.callers ∧ c.number = number :=
  ⟨List.mem_of_find?_eq_some h, by simpa using List.find?_some h⟩

variable {cache : IdentityCache} {e : Engine}

lemma caches_setCache_self : (w.setCache e cache).caches e = cache := Function.update_self ..

lemma caches_setCache_of_ne {e e' : Engine} (h : e' ≠ e) :
    (w.setCache e cache).caches e' = w.caches e' :=
  Function.update_of_ne h ..

/-- A cache is replaced by one that has the same entries for those who are open. -/
lemma Inv.setCache (h : Inv w) (httl : cache.ttl = (w.caches e).ttl)
    (hcache : ∀ c ∈ w.callers, c.session = none → c.engine = e →
      cache.order.lookup c.clientID = (w.caches e).order.lookup c.clientID) :
    Inv (w.setCache e cache) where
  __ := h
  cached c hc hsession := by
    by_cases he : c.engine = e
    · have hlookup := h.cached c hc hsession
      rw [he] at hlookup ⊢
      rw [caches_setCache_self, hcache c hc hsession he, hlookup]
      simp only [IdentityCache.expiry, httl]
    · rw [caches_setCache_of_ne he]
      exact h.cached c hc hsession

lemma World.HasRoom.spares {clientID : String} (h : w.HasRoom e clientID)
    (hc : c ∈ w.callers) (hsession : c.session = none) (he : c.engine = e) :
    clientID ∈ (w.caches e).order ∨ (w.caches e).capacity ≤ 0 ∨
      (w.caches e).order.entries.length < (w.caches e).capacity ∨
      ∀ oldest ∈ (w.caches e).order.entries.getLast?, oldest.1 ≠ c.clientID := by
  rcases h with h | h | h | h
  · exact .inl h
  · exact .inr (.inl h)
  · exact .inr (.inr (.inl h))
  · exact .inr (.inr (.inr fun oldest holdest => (h oldest holdest c hc hsession he).symm))

/-- An identity is stored under a client ID that no one who is open asks under. -/
lemma Inv.store {clientID external : String} (h : Inv w) (hunused : w.Unused e clientID)
    (hroom : w.HasRoom e clientID) : Inv (w.setCache e ((w.caches e).store now clientID external)) :=
  h.setCache IdentityCache.store_ttl fun c hc hsession he =>
    IdentityCache.lookup_store_of_ne (hunused c hc hsession he) (hroom.spares hc hsession he)

/-- The entry of a caller is found as long as its time has not come. -/
lemma Inv.expires_le (htime : (w.caches c.engine).ttl ≤ 0 ∨ now ≤ c.since + (w.caches c.engine).ttl) :
    ∀ t, (w.caches c.engine).expiry c.since = some t → now ≤ t := by
  intro t ht
  rw [IdentityCache.expiry] at ht
  split at ht
  · cases ht
  · cases ht
    omega

lemma Inv.load (h : Inv w) (hc : c ∈ w.callers) (hsession : c.session = none)
    (htime : (w.caches c.engine).ttl ≤ 0 ∨ now ≤ c.since + (w.caches c.engine).ttl) :
    Inv (w.setCache c.engine ((w.caches c.engine).load now c.clientID).1) ∧
      ((w.caches c.engine).load now c.clientID).2 = some c.externalID := by
  have hcached := h.cached c hc hsession
  have hexpires := Inv.expires_le htime
  refine ⟨h.setCache IdentityCache.load_ttl fun d _ _ _ => ?_, ?_⟩
  · exact IdentityCache.lookup_load hcached hexpires d.clientID
  · exact IdentityCache.load_of_lookup hcached hexpires

end

/-! ### Steps -/

section

variable {w : World} {number : Nat} {now : Int}

/-- The numbers of AMQP 0.9.1 connections tell their client IDs apart. -/
lemma amqp091ClientID_injective {remote remote' : String} {seq seq' : Nat}
    (h : amqp091ClientID remote seq = amqp091ClientID remote' seq') : seq = seq' := by
  have hat (n : Nat) : '@' ∉ n.repr.toList := Nat.not_mem_repr rfl n
  -- What follows the last `@` is the number.
  have hreversed := congrArg (fun s : String => s.toList.reverse) h
  have hone : "@".toList = ['@'] := rfl
  simp only [amqp091ClientID, String.toList_append, List.reverse_append, hone, List.singleton_append,
    List.reverse_cons, List.append_assoc] at hreversed
  obtain ⟨hdigits, -⟩ := List.append_cons_inj_of_first (fun hmem => hat seq (List.mem_reverse.1 hmem))
    (fun hmem => hat seq' (List.mem_reverse.1 hmem)) hreversed
  exact Nat.eq_of_toList_repr (List.reverse_injective hdigits)

lemma unused_amqp091 {remote : String} (h : Inv w) :
    w.Unused .amqp091 (amqp091ClientID remote (w.connectionSeq + 1)) := by
  intro c hc _ he hsame
  obtain ⟨remote', seq, hclientID, hle⟩ := h.numbered c hc he
  have heq := amqp091ClientID_injective (hclientID.symm.trans hsame)
  omega

/-- A request whose identity has been stored under the client ID that it asks under. -/
lemma Inv.enter {e : Engine} {clientID id : String} {seq : Nat} (h : Inv w)
    (hunused : w.Unused e clientID) (hroom : w.HasRoom e clientID) (hid : id ≠ "")
    (hnumbered : e = .amqp091 → ∃ remote, clientID = amqp091ClientID remote seq)
    (hseq : w.connectionSeq ≤ seq) :
    Inv { w.setCache e ((w.caches e).store now clientID id) with
      connectionSeq := seq
      callers := { number, engine := e, clientID, externalID := id, since := now } :: w.callers } where
  bound c hc := by
    rcases List.mem_cons.1 hc with rfl | hc
    · exact hid
    · exact h.bound c hc
  cached c hc hsession := by
    rcases List.mem_cons.1 hc with rfl | hc
    · have hself : (w.setCache e ((w.caches e).store now clientID id)).caches e =
          (w.caches e).store now clientID id := caches_setCache_self
      simp only [hself, IdentityCache.lookup_store_self, IdentityCache.expiry, IdentityCache.store_ttl]
    · exact (h.store hunused hroom).cached c hc hsession
  distinct c hc d hd hsession hsession' he hsame := by
    rcases List.mem_cons.1 hc with rfl | hc
    · rcases List.mem_cons.1 hd with rfl | hd
      · rfl
      · exact absurd hsame.symm (hunused d hd hsession' he.symm)
    · rcases List.mem_cons.1 hd with rfl | hd
      · exact absurd hsame (hunused c hc hsession he)
      · exact h.distinct c hc d hd hsession hsession' he hsame
  session c hc p hp := by
    rcases List.mem_cons.1 hc with rfl | hc
    · cases hp
    · exact h.session c hc p hp
  numbered c hc he := by
    rcases List.mem_cons.1 hc with rfl | hc
    · obtain ⟨remote, hclientID⟩ := hnumbered he
      exact ⟨remote, seq, hclientID, le_rfl⟩
    · obtain ⟨remote, seq', hclientID, hle⟩ := h.numbered c hc he
      exact ⟨remote, seq', hclientID, Nat.le_trans hle hseq⟩
  decided := h.decided

/-- Connections that are not accepted count, too. -/
lemma Inv.setSeq {seq : Nat} (h : Inv w) (hseq : w.connectionSeq ≤ seq) :
    Inv { w with connectionSeq := seq } where
  __ := h
  numbered c hc he := by
    obtain ⟨remote, seq', hclientID, hle⟩ := h.numbered c hc he
    exact ⟨remote, seq', hclientID, Nat.le_trans hle hseq⟩

lemma setCache_self {e : Engine} : w.setCache e (w.caches e) = w := by simp [World.setCache]

lemma inv_authenticate {r : Request} {answer : AuthnAnswer} (h : Inv w)
    (ha : Admissible w (.authenticate number now r answer)) :
    Inv (w.authenticate number now r answer) := by
  cases hanswer : validateCredentials answer with
  | none =>
    rw [World.authenticate]
    simp only [authenticate, hanswer, setCache_self]
    refine h.setSeq ?_
    cases r with
    | amqp091 => exact Nat.le_succ _
    | _ => exact le_rfl
  | some id =>
    obtain ⟨hid, hr⟩ := ha id hanswer
    cases r with
    | http clientID | coap clientID =>
      simp only [World.authenticate, authenticate, hanswer, hid, ne_eq, not_false_eq_true, if_true]
      exact h.enter hr.1 hr.2 hid (by intro he; cases he) le_rfl
    | amqp1 username containerID =>
      obtain ⟨rfl, hunused, hroom⟩ := hr
      simp only [World.authenticate, authenticate, hanswer, hid, ne_eq, not_false_eq_true, if_true]
      exact h.enter hunused hroom hid (by intro he; cases he) le_rfl
    | amqp091 remote =>
      simp only [World.authenticate, authenticate, hanswer, hid, ne_eq, not_false_eq_true, if_true]
      exact h.enter (unused_amqp091 h) hr hid (fun _ => ⟨remote, rfl⟩) (Nat.le_succ _)

lemma inv_connect {session : Nat} {clientID externalID : String} {requireBound : Bool} (h : Inv w)
    (ha : Admissible w (.connect number now session clientID externalID requireBound)) :
    Inv (w.connect number now session clientID externalID requireBound) := by
  obtain ⟨hid, hunused, hroom⟩ := ha
  rw [World.connect]
  split
  · exact h
  rename_i hallowed
  have hstored : Inv (w.setCache .mqtt ((w.caches .mqtt).store now clientID externalID)) :=
    h.store hunused hroom
  simp only [setExternalID, hid, if_false]
  refine ⟨fun c hc => ?_, fun c hc hsession => ?_, fun c hc d hd hsession hsession' => ?_,
    fun c hc p hp => ?_, fun c hc he => ?_, h.decided⟩
  · rcases List.mem_cons.1 hc with rfl | hc
    · exact hid
    · exact h.bound c hc
  · rcases List.mem_cons.1 hc with rfl | hc
    · cases hsession
    · exact hstored.cached c hc hsession
  · rcases List.mem_cons.1 hc with rfl | hc
    · cases hsession
    rcases List.mem_cons.1 hd with rfl | hd
    · cases hsession'
    · exact h.distinct c hc d hd hsession hsession'
  · rcases List.mem_cons.1 hc with rfl | hc
    · cases hp
      exact ⟨rfl, AList.lookup_insert _⟩
    obtain ⟨he, hbound⟩ := h.session c hc p hp
    have hc' := h.bound c hc
    refine ⟨he, ?_⟩
    by_cases hsame : p = session
    · -- A session that is in use is bound to its identity, which the new connection has then, too.
      subst hsame
      simp only [World.allows, hbound, Bool.not_eq_true', Bool.not_eq_false] at hallowed
      rw [AList.lookup_insert, (Mqtt.Identity.identityAllows_iff hc' hid).1 hallowed]
    · rw [AList.lookup_insert_ne hsame, hbound]
  · rcases List.mem_cons.1 hc with rfl | hc
    · cases he
    · exact h.numbered c hc he

/-- The identity that a connection of MQTT is authorized with is that of its session. -/
lemma Inv.authorizationIdentity {c : Caller} {p : Nat} (h : Inv w) (hc : c ∈ w.callers)
    (hp : c.session = some p) : w.authorizationIdentity p c.clientID = c.externalID := by
  rw [World.authorizationIdentity, (h.session c hc p hp).2]
  simp [h.bound c hc]

lemma Inv.decide {d : Decision} (h : Inv w) (hd : d.consulted = d.caller.externalID) :
    Inv { w with decisions := d :: w.decisions } where
  __ := h
  decided d' hd' := by
    rcases List.mem_cons.1 hd' with rfl | hd'
    · exact hd
    · exact h.decided d' hd'

lemma inv_authorize {c : Caller} (h : Inv w) (hc : c ∈ w.callers)
    (htime : c.session = none → (w.caches c.engine).ttl ≤ 0 ∨ now ≤ c.since + (w.caches c.engine).ttl) :
    Inv (w.authorize c now) := by
  rw [World.authorize.eq_def]
  split
  · rename_i p hp
    exact h.decide (h.authorizationIdentity hc hp)
  rename_i hsession
  obtain ⟨hloaded, hfound⟩ := h.load hc hsession (htime hsession)
  rw [resolveID_of_load _ _ _ hfound (h.bound c hc)]
  exact hloaded.decide rfl

lemma inv_finish {c : Caller} {current : Bool} (h : Inv w) (hc : c ∈ w.callers)
    (hunused : c.session.isSome → current = true → w.Unused .mqtt c.clientID) :
    Inv (w.finish c current) := by
  have hrest : Inv { w with callers := w.callers.filter (·.number != c.number) } := by
    have hmem {d : Caller} (hd : d ∈ w.callers.filter (·.number != c.number)) : d ∈ w.callers :=
      (List.mem_filter.1 hd).1
    exact ⟨fun d hd => h.bound d (hmem hd), fun d hd => h.cached d (hmem hd),
      fun d hd d' hd' => h.distinct d (hmem hd) d' (hmem hd'), fun d hd => h.session d (hmem hd),
      fun d hd => h.numbered d (hmem hd), h.decided⟩
  rw [World.finish]
  split
  · rename_i hforgets
    refine hrest.setCache rfl fun d hd hsession he => IdentityCache.lookup_delete_of_ne fun hsame => ?_
    obtain ⟨hd, hother⟩ := List.mem_filter.1 hd
    cases hp : c.session with
    | some p =>
      rw [Caller.forgets, hp] at hforgets
      exact hunused (by rw [hp]; rfl) hforgets d hd hsession (he.trans (h.session c hc p hp).1) hsame
    | none =>
      -- Another connection of AMQP 0.9.1 has another client ID.
      have hnumber := h.distinct d hd c hc hsession hp he hsame
      simp [hnumber] at hother
  · exact hrest

lemma inv_step {a : Action} (h : Inv w) (ha : Admissible w a) : Inv (step w a) := by
  cases a with
  | authenticate number now r answer =>
    rw [step]
    split
    · exact h
    · exact inv_authenticate h ha
  | connect number now session clientID externalID requireBound =>
    rw [step]
    split
    · exact h
    · exact inv_connect h ha
  | lookUp number now =>
    rw [step.eq_def]
    dsimp only
    split
    · exact h
    rename_i c hcaller
    obtain ⟨hc, hnumber⟩ := mem_of_caller hcaller
    split
    · exact h
    rename_i he
    have hsession : c.session = none := by
      by_contra hsome
      obtain ⟨p, hp⟩ := Option.ne_none_iff_exists'.1 hsome
      exact he (h.session c hc p hp).1
    exact (h.load hc hsession (ha c hc hnumber hsession)).1
  | authorize number now =>
    rw [step.eq_def]
    dsimp only
    split
    · exact h
    · rename_i c hcaller
      obtain ⟨hc, hnumber⟩ := mem_of_caller hcaller
      exact inv_authorize h hc (ha c hc hnumber)
  | finish number current =>
    rw [step.eq_def]
    dsimp only
    split
    · exact h
    · rename_i c hcaller
      obtain ⟨hc, hnumber⟩ := mem_of_caller hcaller
      exact inv_finish h hc (ha c hc hnumber)

end

/-! ### Runs -/

lemma inv_init {capacity ttl : Int} : Inv (init capacity ttl) := by
  refine ⟨?_, ?_, ?_, ?_, ?_, ?_⟩ <;> exact nofun

/-- In every run whose steps meet the conditions the authorizer is asked about the identity that the caller
got when it authenticated. -/
theorem decided_on_identity (capacity ttl : Int) (actions : List Action)
    (h : Transition.Along step Admissible (init capacity ttl) actions) :
    ∀ d ∈ (Transition.run step (init capacity ttl) actions).decisions, d.consulted = d.caller.externalID :=
  (Transition.invariant_run (fun _ _ hw ha => inv_step hw ha) inv_init h).decided

/-- A request over HTTP, a connection of MQTT and one of AMQP 0.9.1. -/
def openings : List Action :=
  [.authenticate 0 0 (.http "h") (.result true "A"), .connect 1 1 0 "m" "B" false,
    .authenticate 2 2 (.amqp091 "r") (.result true "C"), .authorize 0 3, .authorize 1 4, .lookUp 2 5,
    .authorize 2 6]

theorem decided_on_identity_openings :
    Transition.Along step Admissible (init 2 10) openings ∧
      ((Transition.run step (init 2 10) openings).decisions.map (·.consulted) = ["C", "B", "A"]) ∧
      ∀ d ∈ (Transition.run step (init 2 10) openings).decisions, d.consulted = d.caller.externalID := by
  have halong : Transition.Along step Admissible (init 2 10) openings := by decide +kernel
  exact ⟨halong, by decide +kernel, decided_on_identity 2 10 openings halong⟩

/-- The decisions of a run: the identities of the callers, and those that the authorizer is asked about. -/
def consulted (capacity ttl : Int) (actions : List Action) : List (String × String) :=
  (Transition.run step (init capacity ttl) actions).decisions.map fun d => (d.caller.externalID, d.consulted)

/-- The authorizer is asked about the client ID that the peer has chosen, or about another caller: an AMQP 1.0
connection, two requests over HTTP with one client ID, a request over HTTP beside a connection of MQTT that
ends, a connection of AMQP 0.9.1 whose identity has been evicted, and one whose identity has expired. -/
theorem decided_on_other :
    consulted 10000 86400
        [.authenticate 0 0 (.amqp1 "alice" "admin") (.result true "A"), .authorize 0 1] =
      [("A", "amqp:admin")] ∧
    consulted 10000 86400
        [.authenticate 0 0 (.http "c") (.result true "A"), .authenticate 1 1 (.http "c") (.result true "B"),
          .authorize 0 2] =
      [("A", "B")] ∧
    consulted 10000 86400
        [.connect 0 0 0 "c" "A" false, .authenticate 1 1 (.http "c") (.result true "B"), .finish 0 true,
          .authorize 1 2] =
      [("B", "c")] ∧
    consulted 1 86400
        [.authenticate 0 0 (.amqp091 "r") (.result true "A"),
          .authenticate 1 1 (.amqp091 "r") (.result true "B"), .authorize 0 2] =
      [("A", "amqp091:r@1")] ∧
    consulted 10000 86400
        [.authenticate 0 0 (.amqp091 "r") (.result true "A"), .authorize 0 86401] =
      [("A", "amqp091:r@1")] := by
  decide +kernel

end FluxMQ.Auth
