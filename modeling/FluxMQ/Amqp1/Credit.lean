import FluxMQ.Amqp1.Flow
import Mathlib.Data.List.Count

/-!
# Credit and window of AMQP 1.0 senders

Deliverers take credit from a link, then a unit of the window of the session, and then they write the frames of
the message. Flow frames of the peer are handled at any time. They tell what the peer had seen when it sent
them, and transfers may have been in flight then.

* `credit_respected`: with nothing in flight when a Flow frame is handled, messages of one frame and a window
  that is open, the limits of the last Flow frame are kept and no credit is lost.
* `credit_overrun`: a Flow frame that was sent before the peer has seen what is in flight grants it once more.
-/

namespace FluxMQ.Amqp1.FlowControl

open Transition Session

/-- What is left of the credit of a link. -/
def Session.creditOf (s : Session) (handle : Nat) : Nat := ((s.links handle).map (·.credit)).getD 0

/-- A session with its deliverers, and what has been sent of what may be sent. -/
structure Sending where
  session : Session
  /-- The deliverers that have taken credit of a link, and whether they have a unit of the window, too. -/
  calls : List (Nat × Bool) := []
  /-- The deliveries that have been sent on a link. -/
  sent : Nat → Nat := fun _ => 0
  /-- The transfer frames that have been sent. -/
  frames : Nat := 0
  /-- The delivery count and the credit of the last Flow frame for a link, taken together. -/
  limit : Nat → Nat := fun _ => 0
  /-- The next incoming ID and the window of the last Flow frame, taken together. -/
  frameLimit : Nat

/-- The steps of sending messages on the links of a session, and the Flow frames of its peer. -/
inductive Sending.Action where
  /-- `sendMessage` takes credit. -/
  | take (handle : Nat)
  | consume (handle : Nat)
  /-- A message is written in some frames. -/
  | write (handle frames : Nat)
  /-- A Flow frame of a peer that has seen so many frames. It may be for a link, of which the peer has seen so
  many deliveries. -/
  | flow (framesSeen incomingWindow : Nat) (link : Option (Nat × Nat × Nat))
  deriving Repr, DecidableEq

namespace Sending

/-- The links are attached and have no credit yet. -/
def init (roles : Nat → Option Bool) (begin : Begin) : Sending where
  session := ({ links := fun handle => (roles handle).map ({ isSender := · }) } : Session).initWindows begin
  frameLimit := begin.incomingWindow

def flowFrame (framesSeen incomingWindow : Nat) : Option (Nat × Nat × Nat) → Flow
  | none => { nextIncomingID := some (framesSeen % 2 ^ 32), incomingWindow }
  | some (handle, seen, credit) =>
    { nextIncomingID := some (framesSeen % 2 ^ 32), incomingWindow, handle := some handle,
      deliveryCount := some (seen % 2 ^ 32), linkCredit := some credit }

def step (w : Sending) : Action → Sending
  | .take handle =>
    match w.session.takeCredit handle with
    | none => w
    | some session => { w with session, calls := (handle, false) :: w.calls }
  | .consume handle =>
    if (handle, false) ∈ w.calls then
      match w.session.consumeOutgoingWindow with
      | (_, none) => { w with calls := w.calls.erase (handle, false) }
      | (session, some _) => { w with session, calls := (handle, true) :: w.calls.erase (handle, false) }
    else w
  | .write handle frames =>
    if (handle, true) ∈ w.calls then
      { w with
        calls := w.calls.erase (handle, true)
        sent := Function.update w.sent handle (w.sent handle + 1)
        frames := w.frames + frames }
    else w
  | .flow framesSeen incomingWindow link =>
    { w with
      session := w.session.handleFlow (flowFrame framesSeen incomingWindow link)
      frameLimit := framesSeen + incomingWindow
      limit := match link with
        | none => w.limit
        | some (handle, seen, credit) =>
          if (w.session.links handle).isSome then Function.update w.limit handle (seen + credit) else w.limit }

/-- Nothing is in flight when a Flow frame is handled, messages are of one frame, and the window is open for a
message that has credit. -/
def Admissible (w : Sending) : Action → Prop
  | .take _ => True
  | .consume _ => w.session.outgoingWindow ≠ 0 ∧ w.session.remoteIncomingWindow ≠ 0
  | .write _ frames => frames = 1
  | .flow framesSeen _ link =>
    w.calls = [] ∧ framesSeen = w.frames ∧ link.all (fun (handle, seen, _) => seen = w.sent handle) = true

instance (w : Sending) (a : Action) : Decidable (w.Admissible a) := by
  cases a <;> unfold Admissible <;> infer_instance

/-- The deliverers that have taken credit of a link and have not written their message yet. -/
def onTheirWay (w : Sending) (handle : Nat) : Nat := w.calls.countP (·.1 = handle)

/-- All credit is with a message that was sent or is on its way, or it is left; and so is the window. -/
structure Inv (w : Sending) : Prop where
  credit : ∀ handle, w.sent handle + w.onTheirWay handle + w.session.creditOf handle = w.limit handle
  window : w.frames + w.calls.countP (·.2) + w.session.remoteIncomingWindow = w.frameLimit

variable {w : Sending}

lemma creditOf_setLink {s : Session} {handle other : Nat} {link : Link} :
    (s.setLink handle link).creditOf other = if other = handle then link.credit else s.creditOf other := by
  simp only [creditOf, setLink, Function.update_apply]
  split
  · rfl
  · rfl

lemma creditOf_of_links {s : Session} {handle : Nat} {link : Link} (h : s.links handle = some link) :
    s.creditOf handle = link.credit := by
  rw [creditOf, h]
  rfl

/-- A deliverer that is taken from the list has been counted once. -/
lemma countP_of_mem {calls : List (Nat × Bool)} {call : Nat × Bool} (h : call ∈ calls)
    (p : Nat × Bool → Bool) : calls.countP p = (calls.erase call).countP p + if p call then 1 else 0 := by
  rw [(List.perm_cons_erase h).countP_eq p, List.countP_cons]

lemma Inv.take {handle : Nat} (h : w.Inv) : (w.step (.take handle)).Inv := by
  rw [step.eq_def]
  dsimp only
  split
  · exact h
  rename_i session hs
  obtain ⟨link, new, hlink, -, hcredit, rfl⟩ := Exchanging.takeCredit_eq hs
  refine ⟨fun other => ?_, ?_⟩
  · have hother := h.credit other
    simp only [onTheirWay, List.countP_cons, creditOf_setLink] at hother ⊢
    by_cases heq : other = handle
    · subst heq
      rw [creditOf_of_links hlink] at hother
      simp
      omega
    · simp [heq, Ne.symm heq]
      omega
  · have hwindow := h.window
    simpa [List.countP_cons, setLink] using hwindow

lemma Inv.consume {handle : Nat} (h : w.Inv) (ha : w.Admissible (.consume handle)) :
    (w.step (.consume handle)).Inv := by
  rw [step.eq_def]
  dsimp only
  split
  swap
  · exact h
  rename_i hmem
  rw [consumeOutgoingWindow, if_neg (not_or.2 ha)]
  refine ⟨fun other => ?_, ?_⟩
  · have hother := h.credit other
    rw [onTheirWay, countP_of_mem hmem] at hother
    simpa [onTheirWay, List.countP_cons, creditOf] using hother
  have hwindow := h.window
  rw [countP_of_mem hmem] at hwindow
  have hopen : w.session.remoteIncomingWindow ≠ 0 := ha.2
  simp at hwindow ⊢
  omega

lemma Inv.write {handle frames : Nat} (h : w.Inv) (ha : w.Admissible (.write handle frames)) :
    (w.step (.write handle frames)).Inv := by
  have hone : frames = 1 := ha
  rw [step.eq_def]
  dsimp only
  split
  swap
  · exact h
  rename_i hmem
  refine ⟨fun other => ?_, ?_⟩
  · have hother := h.credit other
    rw [onTheirWay, countP_of_mem hmem] at hother
    simp only [onTheirWay, Function.update_apply]
    by_cases heq : other = handle
    · subst heq
      simp at hother ⊢
      omega
    · simpa [heq, Ne.symm heq] using hother
  · have hwindow := h.window
    rw [countP_of_mem hmem] at hwindow
    simp at hwindow ⊢
    omega

variable {link : Option (Nat × Nat × Nat)}

/-- A Flow frame grants the credit that it states. -/
lemma creditOf_handleFlow {framesSeen incomingWindow other : Nat}
    {s : Session} : (s.handleFlow (flowFrame framesSeen incomingWindow link)).creditOf other =
      match link with
      | none => s.creditOf other
      | some (handle, _, credit) => if other = handle ∧ (s.links handle).isSome then credit
        else s.creditOf other := by
  cases link with
  | none => rfl
  | some link =>
    obtain ⟨handle, seen, credit⟩ := link
    rw [flowFrame, handleFlow]
    cases hlink : s.links handle with
    | none => simp [updateRemoteFlow, hlink, creditOf]
    | some old =>
      simp only [updateRemoteFlow, hlink, creditOf_setLink, Option.isSome_some, and_true]
      rfl

lemma Inv.flow {framesSeen incomingWindow : Nat} (h : w.Inv)
    (ha : w.Admissible (.flow framesSeen incomingWindow link)) :
    (w.step (.flow framesSeen incomingWindow link)).Inv := by
  obtain ⟨hcalls, rfl, hseen⟩ := ha
  refine ⟨fun other => ?_, ?_⟩
  · have hother := h.credit other
    simp only [step, onTheirWay, hcalls, List.countP_nil, creditOf_handleFlow] at hother ⊢
    cases link with
    | none => exact hother
    | some link =>
      obtain ⟨handle, seen, credit⟩ := link
      have hsent : seen = w.sent handle := by simpa using hseen
      dsimp only
      by_cases hlink : (w.session.links handle).isSome = true
      · rw [if_pos hlink, Function.update_apply]
        by_cases heq : other = handle
        · simp [heq, hlink, hsent]
        · simpa [heq] using hother
      · rw [if_neg hlink, if_neg (by tauto)]
        exact hother
  · have hwindow : (w.session.handleFlow (flowFrame w.frames incomingWindow link)).remoteIncomingWindow =
        incomingWindow := by
      rw [Exchanging.windows_handleFlow.2]
      cases link <;> rfl
    simp [step, hcalls, hwindow]

lemma inv_init (roles : Nat → Option Bool) (begin : Begin) : (init roles begin).Inv := by
  refine ⟨fun handle => ?_, Nat.zero_add _⟩
  cases hrole : roles handle <;> simp [init, onTheirWay, initWindows, creditOf, hrole]

/-- In every run of admissible steps no more is sent than the last Flow frame allows, and no credit is lost. -/
theorem credit_respected (roles : Nat → Option Bool) (begin : Begin) (actions : List Action)
    (h : Along step Admissible (init roles begin) actions) :
    let w := run step (init roles begin) actions
    (∀ handle, w.sent handle ≤ w.limit handle) ∧ w.frames ≤ w.frameLimit ∧
      ∀ handle, w.sent handle + w.onTheirWay handle + w.session.creditOf handle = w.limit handle := by
  have hinv : (run step (init roles begin) actions).Inv := by
    refine invariant_run (fun w a hw ha => ?_) (inv_init roles begin) h
    cases a with
    | take handle => exact hw.take
    | consume handle => exact hw.consume ha
    | write handle frames => exact hw.write ha
    | flow framesSeen incomingWindow link => exact hw.flow ha
  refine ⟨fun handle => ?_, ?_, hinv.credit⟩
  · have hcredit := hinv.credit handle
    omega
  · have hwindow := hinv.window
    omega

/-- A message of one frame. -/
def message (handle : Nat) : List Action := [.take handle, .consume handle, .write handle 1]

theorem credit_respected_messages :
    let w := run step (init (fun _ => some true) ⟨0, 5⟩)
      (.flow 0 5 (some (0, 0, 2)) :: message 0 ++ .flow 1 7 (some (0, 1, 4)) :: message 0)
    w.sent 0 = 2 ∧ w.sent 0 ≤ w.limit 0 :=
  ⟨by decide +kernel, (credit_respected (fun _ => some true) ⟨0, 5⟩
    (.flow 0 5 (some (0, 0, 2)) :: message 0 ++ .flow 1 7 (some (0, 1, 4)) :: message 0)
    (by decide +kernel)).1 0⟩

/-- The peer grants two deliveries and, before it has seen them, one more. Five are sent. -/
theorem credit_overrun :
    let w := run step (init (fun _ => some true) ⟨0, 9⟩)
      (.flow 0 9 (some (0, 0, 2)) :: message 0 ++ message 0 ++ .flow 0 9 (some (0, 0, 3)) :: message 0 ++
        message 0 ++ message 0)
    w.limit 0 = 3 ∧ w.sent 0 = 5 := by
  decide +kernel

end Sending

end FluxMQ.Amqp1.FlowControl
