import FluxMQ.Storage.ClientKeys

/-!
# Sessions and the principals they are bound to

How a CONNECT meets what is there for its client ID already: `createSession`, `attachSession`,
`resolveSessionRestore`, `claimOrphanedSessionState`, `GetSessionStateAndClose`, `handleDisconnect` and what
they call in `mqtt/broker/session.go`, and `IdentityAllows` in `mqtt/session/session.go`, on any number of
nodes. Each node has its sessions in memory and its database, whose keys are those of
`FluxMQ.Storage.ClientKeys`; the routing table of the cluster is shared.

* `Item`: something that a session has, with the principal that the session was bound to when it got it.
  Nothing reads the principal.
* `Session`, `Node`, `World`: the state.
* `Local.createSession`, `Local.attachSession`, `Local.getSessionStateAndClose`, `Local.handleDisconnect`:
  the operations of one node.
* `Action`, `step`: what can happen on any of the nodes. The lock of a client ID is held from the beginning
  of a CONNECT to the end of `createSession`; a session may be handed over in between.

Which node a CONNECT takes a session over from, whether the owner key can be acquired and which calls fail
is up to the environment (`Faults`). The contents of messages, subscriptions and Wills are left abstract,
the limits on sessions and queues, retirements, notifications and the time until a session expires are left
out.
-/

namespace FluxMQ.Mqtt.Identity

open Keyspace Storage

variable {μ ν : Type}

/-! ### Sessions -/

/-- Something that a session has. -/
structure Item (μ : Type) where
  principal : String
  content : μ
  deriving Repr, DecidableEq

/-- What the database has of a client. -/
inductive Stored (μ : Type) where
  | session (externalID : String) (expiryInterval : Nat)
  | will (item : Item μ)
  | subscription (filter : String) (item : Item μ)
  | queued (item : Item μ)
  | inflight (direction packetID : Nat) (item : Item μ)
  deriving Repr, DecidableEq

/-- The principal whose session it is of. -/
def Stored.principal : Stored μ → String
  | .session externalID _ => externalID
  | .will item | .subscription _ item | .queued item | .inflight _ _ item => item.principal

/-- What a session carries. -/
structure Contents (μ : Type) where
  subscriptions : List (String × Item μ) := []
  inflight : List (Nat × Nat × Item μ) := []
  queue : List (Item μ) := []
  will : Option (Item μ) := none
  deriving Repr, DecidableEq

/-- All that a session carries. -/
def Contents.items (c : Contents μ) : List (Item μ) :=
  c.subscriptions.map (·.2) ++ c.inflight.map (·.2.2) ++ c.queue ++ c.will.toList

/-- `Session`, with a number in the place of the pointer to it. The connection is known by the identity
that it has authenticated as. -/
structure Session (μ : Type) where
  pointer : Nat
  externalID : String
  epoch : Nat := 0
  connection : Option String := none
  /-- It has been attached to a connection before. -/
  attached : Bool := false
  expiryInterval : Nat := 0
  contents : Contents μ := {}
  deriving Repr, DecidableEq

/-- `SessionState`, which is handed over from node to node. -/
structure Captured (μ : Type) where
  externalID : String
  expiryInterval : Nat
  contents : Contents μ
  deriving Repr, DecidableEq

def identityAllows (bound incoming : String) (requireBound : Bool) : Bool :=
  if requireBound then incoming ≠ "" && bound = incoming else bound = "" || bound = incoming

lemma identityAllows_iff {bound incoming : String} {requireBound : Bool} (hbound : bound ≠ "")
    (hincoming : incoming ≠ "") : identityAllows bound incoming requireBound = true ↔ bound = incoming := by
  cases requireBound with
  | true => simp [identityAllows, hincoming]
  | false => simp [identityAllows, hbound]

/-- What a CONNECT asks for, with the identity that it has authenticated as. -/
structure Options (μ : Type) where
  externalID : String
  requireBound : Bool := false
  cleanStart : Bool := false
  expiryInterval : Nat := 0
  will : Option μ := none
  deriving Repr, DecidableEq

/-- `sessionClaim`, with whom it is for. -/
structure Claim (μ : Type) where
  clientID : String
  pointer : Nat
  epoch : Nat
  continuesSession : Bool
  /-- The session was made for it. -/
  created : Bool
  options : Options μ
  deriving Repr, DecidableEq

/-- `sessionRestore`: which state a CONNECT may inherit. -/
structure Restore (μ : Type) where
  takeover : Option (Captured μ) := none
  stored : Option (String × Nat) := none
  localState : Bool := false
  preserveForOwner : Bool := false
  /-- The identity that the new session is given. -/
  externalID : String

/-- A CONNECT that holds the lock of its client ID, with what was handed over to it. -/
structure Pending (μ : Type) where
  options : Options μ
  takeoverState : Option (Captured μ) := none
  deriving Repr, DecidableEq

/-- The calls that may fail. -/
inductive Call where
  | loadWill
  | destroy
  | dropRoutes
  | acquireSession
  | capacity
  | getSession
  | clearRoutes
  | claimOrphaned
  | setWill
  | restoreInflight
  | restoreQueue
  | restoreSubscriptions
  | saveSession
  | cancelWill
  | takeover
  deriving Repr, DecidableEq

/-- Which calls fail, and how far a call that is made of several steps gets then. -/
structure Faults where
  fails : Call → Bool := fun _ => false
  steps : Nat := 0
  /-- The Will that is handed over has a delay. -/
  delayed : Bool := false

/-- A node: its sessions and what it has stored for clients. -/
structure Node (μ : Type) where
  /-- `sessionsMap`. -/
  sessions : String → Option (Session μ) := fun _ => none
  db : Table Char (Stored μ) := []
  creating : String → Option (Pending μ) := fun _ => none
  claims : List (Claim μ) := []
  nextPointer : Nat := 0

/-- A node and the routing table of the cluster. -/
structure Local (μ : Type) where
  node : Node μ
  routes : String → List (String × Item μ)

namespace Local

variable (l : Local μ)

/-! ### Stores -/

/-- Operations of the stores on behalf of a client. -/
def perform (clientID : String) (ops : List (Operation (Stored μ))) : Local μ :=
  { l with node.db := ops.foldl (fun db op => Keyspace.perform db (op.changes clientID)) l.node.db }

/-- What an operation of the stores answers. -/
def answer (clientID : String) (op : Operation (Stored μ)) : List (Stored μ) :=
  (op.answer clientID l.node.db).map (·.2)

/-- The session record. -/
def record (clientID : String) : Option (String × Nat) :=
  (l.answer clientID .getSession).findSome? fun
    | .session externalID expiryInterval => some (externalID, expiryInterval)
    | _ => none

def storedWill (clientID : String) : Option (Item μ) :=
  (l.answer clientID .getWill).findSome? fun
    | .will item => some item
    | _ => none

def storedSubscriptions (clientID : String) : List (String × Item μ) :=
  (l.answer clientID .getSubscriptions).filterMap fun
    | .subscription filter item => some (filter, item)
    | _ => none

def storedQueue (clientID : String) : List (Item μ) :=
  (l.answer clientID .listQueued).filterMap fun
    | .queued item => some item
    | _ => none

def storedInflight (clientID : String) : List (Nat × Nat × Item μ) :=
  (l.answer clientID .listInflight).filterMap fun
    | .inflight direction packetID item => some (direction, packetID, item)
    | _ => none

def setSession (clientID : String) (s : Option (Session μ)) : Local μ :=
  { l with node.sessions := Function.update l.node.sessions clientID s }

def setRoutes (clientID : String) (routes : List (String × Item μ)) : Local μ :=
  { l with routes := Function.update l.routes clientID routes }

/-- `persistSessionInfo`. -/
def saveSession (clientID : String) (s : Session μ) : Local μ :=
  l.perform clientID [.saveSession (.session s.externalID s.expiryInterval)]

/-- `persistSessionMessages` puts the queue and what is in flight into the store. The queue is empty
then. -/
def persistSessionMessages (clientID : String) (s : Session μ) : Local μ :=
  (l.perform clientID
    ((s.contents.queue.zipIdx.map fun (item, i) => .storeQueued i (.queued item)) ++
      s.contents.inflight.map fun (direction, packetID, item) =>
        .storeInflight direction packetID (.inflight direction packetID item))).setSession clientID
    (some { s with contents.queue := [] })

/-! ### The end of a session -/

/-- `dropSessionLocked`. -/
def dropSession (clientID : String) (f : Faults) : Local μ :=
  let l := l.setSession clientID none
  if f.fails .dropRoutes then l else l.setRoutes clientID []

/-- `deleteDurableSessionState`, and whether it went through. -/
def deleteDurable (clientID : String) (call : Call) (f : Faults) : Local μ × Bool :=
  if f.fails call then (l.perform clientID [.deleteDurableSessionState f.steps], false)
  else (l.perform clientID [.deleteDurableSessionState 4], true)

/-- `destroySessionLocked` and `destroySessionForTakeoverLocked`. -/
def destroySession (clientID : String) (s : Session μ) (f : Faults) : Local μ × Bool :=
  let l := l.setSession clientID (some { s with connection := none })
  match l.deleteDurable clientID .destroy f with
  | (l, false) => (l, false)
  | (l, true) => (l.dropSession clientID f, true)

end Local

def Session.detachForTakeover (s : Session μ) : Session μ :=
  { s with epoch := s.epoch + 1, connection := none, contents.will := none }

namespace Local

variable (l : Local μ)

/-- `GetSessionStateAndClose` with the identity that is to be checked: what is handed over, or that it was
refused. -/
def getSessionStateAndClose (clientID : String) (identity : Option String) (f : Faults) :
    Local μ × Option (Option (Captured μ)) :=
  match l.node.sessions clientID with
  | none => (l, some none)
  | some s =>
    if identity.any fun externalID => !identityAllows s.externalID externalID false then (l, none)
    else
      let drained := { s with contents.queue := [] }
      if s.contents.will.isNone ∧ f.fails .loadWill then (l.setSession clientID (some drained), none)
      else
        let state : Captured μ :=
          { externalID := s.externalID
            expiryInterval := s.expiryInterval
            contents :=
              { subscriptions := l.storedSubscriptions clientID
                inflight := s.contents.inflight
                queue := s.contents.queue
                will := s.contents.will.orElse fun _ => l.storedWill clientID } }
        match l.destroySession clientID drained.detachForTakeover f with
        | (l, false) => (l, none)
        | (l, true) => (l, some (some state))

/-! ### CONNECT -/

def resolveSessionRestore (clientID : String) (o : Options μ) (takeoverState : Option (Captured μ))
    (f : Faults) : Option (Restore μ) :=
  match if o.cleanStart then none else takeoverState with
  | some t =>
    if o.requireBound ∧ t.externalID = "" then some { externalID := o.externalID }
    else if !identityAllows t.externalID o.externalID o.requireBound then
      if t.expiryInterval = 0 then some { externalID := o.externalID }
      else some { takeover := some t, preserveForOwner := true, externalID := t.externalID }
    else
      some
        { takeover := some t
          externalID := if t.externalID ≠ "" then t.externalID else o.externalID }
  | none =>
    if o.cleanStart then some { externalID := o.externalID }
    else if f.fails .getSession then none
    else
      match l.record clientID with
      | none => some { localState := true, externalID := o.externalID }
      | some stored =>
        if o.requireBound ∧ stored.1 = "" then some { externalID := o.externalID }
        else if !identityAllows stored.1 o.externalID o.requireBound then none
        else some { stored := some stored, localState := true, externalID := o.externalID }

/-- `claimOrphanedSessionState`: the routes go first. -/
def claimOrphanedSessionState (clientID : String) (f : Faults) : Local μ × Bool :=
  if f.fails .clearRoutes then (l, false)
  else
    let l := l.setRoutes clientID []
    if f.fails .loadWill then (l, false) else l.deleteDurable clientID .claimOrphaned f

/-- What a new session begins with, and what that takes from the stores. -/
def restoreContents (clientID : String) (clustered : Bool) (r : Restore μ) (f : Faults) :
    Local μ × Option (Contents μ) :=
  let add := fun (sub : String × Item μ) =>
    Operation.addSubscription sub.1 (Stored.subscription sub.1 sub.2)
  match r.takeover with
  | some t =>
    let subs := t.contents.subscriptions
    if f.fails .restoreSubscriptions then
      let done := subs.take f.steps
      ((l.perform clientID ((subs.take (f.steps + 1)).map add)).setRoutes clientID
        (done ++ l.routes clientID), none)
    else
      ((l.perform clientID (subs.map add)).setRoutes clientID (subs ++ l.routes clientID),
        some { t.contents with will := none })
  | none =>
    if !r.localState then (l, some {})
    else if f.fails .restoreInflight then (l, none)
    else
      let inflight := l.storedInflight clientID
      let l := l.perform clientID [.deleteInflight]
      if f.fails .restoreQueue then (l, none)
      else
        let queue := l.storedQueue clientID
        let l := l.perform clientID [.deleteQueued]
        if f.fails .restoreSubscriptions then (l, none)
        else
          let subscriptions := if clustered then l.routes clientID else l.storedSubscriptions clientID
          (l.perform clientID (subscriptions.map add), some { subscriptions, inflight, queue })

/-- The Will of a session that is kept for its owner is stored if it is delayed. -/
def preserveWill (clientID : String) (r : Restore μ) (takeoverWill : Option (Item μ)) (f : Faults) :
    Local μ × Bool :=
  match takeoverWill with
  | none => (l, true)
  | some will =>
    if !r.preserveForOwner ∨ !f.delayed then (l, true)
    else if f.fails .setWill then (l, false)
    else (l.perform clientID [.setWill (.will will)], true)

/-- A session is made of what the CONNECT may inherit, stored and registered. -/
def establish (clientID : String) (clustered : Bool) (o : Options μ) (r : Restore μ)
    (takeoverWill : Option (Item μ)) (f : Faults) : Local μ × Option (Claim μ) :=
  match l.preserveWill clientID r takeoverWill f with
  | (l, false) => (l, none)
  | (l, true) =>
    match l.restoreContents clientID clustered r f with
    | (l, none) => (l, none)
    | (l, some contents) =>
      let interval :=
        match r.takeover, r.stored with
        | some t, _ => if 0 < t.expiryInterval then t.expiryInterval else o.expiryInterval
        | none, some stored => stored.2
        | none, none => o.expiryInterval
      let s : Session μ :=
        { pointer := l.node.nextPointer
          externalID := r.externalID
          expiryInterval := interval
          contents :=
            { contents with
              will := if r.preserveForOwner then none else o.will.map (⟨o.externalID, ·⟩) } }
      if f.fails .saveSession then (l, none)
      else
        let l := (l.saveSession clientID s).setSession clientID (some s)
        let l := { l with node.nextPointer := l.node.nextPointer + 1 }
        if r.preserveForOwner then (l, none)
        else
          (l, some
            { clientID
              pointer := s.pointer
              epoch := s.epoch
              continuesSession := r.takeover.isSome || r.stored.isSome
              created := true
              options := o })

/-- The part of `createSession` for a client ID that has no session here. -/
def createFresh (clientID : String) (clustered : Bool) (o : Options μ)
    (takeoverState : Option (Captured μ)) (f : Faults) : Local μ × Option (Claim μ) :=
  if f.fails .capacity then (l, none)
  else
    match l.resolveSessionRestore clientID o takeoverState f with
    | none => (l, none)
    | some r =>
      if f.fails .acquireSession then (l, none)
      else
        let takeoverWill := takeoverState.bind (·.contents.will)
        if r.takeover.isNone ∧ r.stored.isNone then
          match l.claimOrphanedSessionState clientID f with
          | (l, false) => (l, none)
          | (l, true) => l.establish clientID clustered o r takeoverWill f
        else l.establish clientID clustered o r takeoverWill f

/-- `createSession`, from the point where a session of another node has been handed over. -/
def createSession (clientID : String) (clustered : Bool) (o : Options μ)
    (takeoverState : Option (Captured μ)) (f : Faults) : Local μ × Option (Claim μ) :=
  match l.node.sessions clientID with
  | none => l.createFresh clientID clustered o takeoverState f
  | some s =>
    if o.cleanStart then
      let l := l.setSession clientID (some s.detachForTakeover)
      if f.fails .loadWill then (l, none)
      else
        match l.destroySession clientID s.detachForTakeover f with
        | (l, false) => (l, none)
        | (l, true) => l.createFresh clientID clustered o takeoverState f
    else if o.requireBound ∧ s.externalID = "" then
      match l.destroySession clientID s f with
      | (l, false) => (l, none)
      | (l, true) => l.createFresh clientID clustered o takeoverState f
    -- `BindExternalIdentity`.
    else if !identityAllows s.externalID o.externalID o.requireBound then (l, none)
    else
      let l := l.setSession clientID (some { s with externalID := o.externalID })
      if f.fails .acquireSession then (l, none)
      else
        (l, some
          { clientID
            pointer := s.pointer
            epoch := s.epoch
            continuesSession := true
            created := false
            options := o })

/-- `attachSession`, and `releaseUnattachedSession` if a claim that is still good cannot be attached. -/
def attachSession (claim : Claim μ) (f : Faults) : Local μ :=
  match l.node.sessions claim.clientID with
  | none => l
  | some s =>
    if s.pointer ≠ claim.pointer ∨ s.epoch ≠ claim.epoch then l
    else if claim.continuesSession ∧ f.fails .cancelWill then
      if claim.created then (l.persistSessionMessages claim.clientID s).dropSession claim.clientID f else l
    else
      let l := if claim.continuesSession then l.perform claim.clientID [.deleteWill] else l
      let s : Session μ :=
        { s with
          epoch := s.epoch + 1
          connection := some claim.options.externalID
          attached := true
          expiryInterval :=
            if claim.continuesSession then claim.options.expiryInterval else s.expiryInterval
          contents.will := claim.options.will.map (⟨claim.options.externalID, ·⟩) }
      (l.setSession claim.clientID (some s)).saveSession claim.clientID s

/-! ### What happens to a session otherwise -/

/-- The connection is lost. The callback follows later. -/
def loseConnection (clientID : String) : Local μ :=
  match l.node.sessions clientID with
  | none => l
  | some s => l.setSession clientID (some { s with connection := none })

/-- What becomes of the Will when the connection is gone: it is dropped, published or stored. -/
def settleWill (clientID : String) (s : Session μ) (discardsWill delayed : Bool) : Local μ :=
  if discardsWill then l.perform clientID [.deleteWill]
  else
    match s.contents.will with
    | some will =>
      if delayed ∧ s.expiryInterval ≠ 0 then l.perform clientID [.setWill (.will will)] else l
    | none => l

/-- `handleDisconnect` for one generation of a session. -/
def handleDisconnect (clientID : String) (pointer epoch : Nat) (discardsWill delayed : Bool)
    (f : Faults) : Local μ :=
  match l.node.sessions clientID with
  | none => l
  | some s =>
    if s.pointer ≠ pointer ∨ s.epoch ≠ epoch then l
    else
      let l := (l.saveSession clientID s).settleWill clientID s discardsWill delayed
      let s := { s with contents.will := none }
      let l := l.persistSessionMessages clientID s
      if s.expiryInterval = 0 then
        (l.destroySession clientID { s with contents.queue := [] } f).1
      else l

/-- `expireSession` of one that has no connection. -/
def expireSession (clientID : String) (f : Faults) : Local μ :=
  match l.node.sessions clientID with
  | none => l
  | some s => if s.connection.isSome then l else (l.destroySession clientID s f).1

/-- A message is queued for a session. -/
def enqueue (clientID : String) (content : μ) : Local μ :=
  match l.node.sessions clientID with
  | none => l
  | some s =>
    l.setSession clientID
      (some { s with contents.queue := s.contents.queue ++ [⟨s.externalID, content⟩] })

/-- A message is sent and waits for its acknowledgement. -/
def send (clientID : String) (packetID : Nat) (content : μ) : Local μ :=
  match l.node.sessions clientID with
  | none => l
  | some s =>
    l.setSession clientID
      (some { s with
        contents.inflight := s.contents.inflight ++ [(1, packetID, ⟨s.externalID, content⟩)] })

/-- A subscription is made for a session. -/
def subscribe (clientID filter : String) (content : μ) : Local μ :=
  match l.node.sessions clientID with
  | none => l
  | some s =>
    let item : Item μ := ⟨s.externalID, content⟩
    let l := l.perform clientID [.addSubscription filter (.subscription filter item)]
    let l := l.setRoutes clientID ((filter, item) :: l.routes clientID)
    l.setSession clientID
      (some { s with contents.subscriptions := (filter, item) :: s.contents.subscriptions })

end Local

/-! ### Nodes -/

/-- The nodes of a cluster. -/
structure World (μ ν : Type) where
  nodes : ν → Node μ := fun _ => {}
  routes : String → List (String × Item μ) := fun _ => []

/-- What can happen. -/
inductive Action (μ ν : Type) where
  /-- A CONNECT takes the lock of its client ID, and takes a session over from another node. -/
  | begin (n : ν) (clientID : String) (o : Options μ) (source : Option ν) (f : Faults)
  /-- It goes on with `createSession`. -/
  | create (n : ν) (clientID : String) (clustered : Bool) (f : Faults)
  /-- It goes on with `attachSession`. -/
  | attach (n : ν) (claim : Claim μ) (f : Faults)
  | loseConnection (n : ν) (clientID : String)
  | handleDisconnect (n : ν) (clientID : String) (pointer epoch : Nat) (discardsWill delayed : Bool)
      (f : Faults)
  | expire (n : ν) (clientID : String) (f : Faults)
  /-- The database drops the record of a session, whose time has come. -/
  | dropRecord (n : ν) (clientID : String)
  | sweepWill (n : ν) (clientID : String)
  | enqueue (n : ν) (clientID : String) (content : μ)
  | send (n : ν) (clientID : String) (packetID : Nat) (content : μ)
  | subscribe (n : ν) (clientID filter : String) (content : μ)
  /-- The node is started anew with its database. -/
  | restart (n : ν)

section

variable [DecidableEq μ] [DecidableEq ν]

namespace World

/-- What a node sees. -/
def view (w : World μ ν) (n : ν) : Local μ :=
  ⟨w.nodes n, w.routes⟩

/-- What a node has made of it. -/
def put (w : World μ ν) (n : ν) (l : Local μ) : World μ ν :=
  ⟨Function.update w.nodes n l.node, l.routes⟩

def setCreating (w : World μ ν) (n : ν) (clientID : String) (p : Option (Pending μ)) : World μ ν :=
  { w with
    nodes := Function.update w.nodes n
      { w.nodes n with creating := Function.update (w.nodes n).creating clientID p } }

/-- The lock of the client ID is free. -/
def isFree (w : World μ ν) (n : ν) (clientID : String) : Bool :=
  ((w.nodes n).creating clientID).isNone

/-- A CONNECT takes the lock, and a session over. Clean Start has nothing to be checked. -/
def begin (w : World μ ν) (n : ν) (clientID : String) (o : Options μ) (source : Option ν) (f : Faults) :
    World μ ν :=
  if !w.isFree n clientID then w
  else
    match source with
    | none => w.setCreating n clientID (some { options := o })
    | some m =>
      if m = n ∨ !w.isFree m clientID then w
      else
        let identity := if o.cleanStart then none else some o.externalID
        match (w.view m).getSessionStateAndClose clientID identity f with
        | (l, none) => w.put m l
        | (l, some takeoverState) =>
          if f.fails .takeover then w.put m l
          else (w.put m l).setCreating n clientID (some { options := o, takeoverState })

/-- The lock is given back at the end of `createSession`. -/
def create (w : World μ ν) (n : ν) (clientID : String) (clustered : Bool) (f : Faults) : World μ ν :=
  match (w.nodes n).creating clientID with
  | none => w
  | some p =>
    match (w.view n).createSession clientID clustered p.options p.takeoverState f with
    | (l, claim) =>
      (w.put n { l with node.claims := claim.toList ++ l.node.claims }).setCreating n clientID none

/-- Something that needs the lock of the client ID happens on a node. -/
def onNode (w : World μ ν) (n : ν) (clientID : String) (f : Local μ → Local μ) : World μ ν :=
  if w.isFree n clientID then w.put n (f (w.view n)) else w

end World

def step (w : World μ ν) : Action μ ν → World μ ν
  | .begin n clientID o source f => w.begin n clientID o source f
  | .create n clientID clustered f => w.create n clientID clustered f
  | .attach n claim f =>
    if claim ∈ (w.nodes n).claims then w.onNode n claim.clientID (·.attachSession claim f) else w
  | .loseConnection n clientID => w.put n ((w.view n).loseConnection clientID)
  | .handleDisconnect n clientID pointer epoch discardsWill delayed f =>
    w.onNode n clientID (·.handleDisconnect clientID pointer epoch discardsWill delayed f)
  | .expire n clientID f => w.onNode n clientID (·.expireSession clientID f)
  | .dropRecord n clientID => w.put n ((w.view n).perform clientID [.deleteSession])
  | .sweepWill n clientID => w.onNode n clientID (·.perform clientID [.deleteWill])
  | .enqueue n clientID content => w.put n ((w.view n).enqueue clientID content)
  | .send n clientID packetID content => w.put n ((w.view n).send clientID packetID content)
  | .subscribe n clientID filter content => w.put n ((w.view n).subscribe clientID filter content)
  | .restart n =>
    { w with
      nodes := Function.update w.nodes n
        { db := (w.nodes n).db, nextPointer := (w.nodes n).nextPointer } }

end

end FluxMQ.Mqtt.Identity
