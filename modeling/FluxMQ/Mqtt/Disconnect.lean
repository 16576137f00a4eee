import FluxMQ.Library.Runs

/-!
# Disconnecting a session while its connection writes

`DisconnectWithCause` of `mqtt/session/session.go` writes DISCONNECT and closes the connection with
the mutex of the session held. `Close` of `mqtt/connection.go` waits for the send loop, and the send
loop runs the callbacks of what it has flushed: `MarkSentIfEpoch` takes the mutex of the session.

The send loop is embedded with its phases, and every `select` offers what is ready; which of them is
taken comes with the action. A connection without send queues writes under `sendMu` instead, and
runs the callback there.

* `Connection.Deadlocked`: whoever holds the mutex waits for the writer, which waits for the mutex.
* `Connection.never_deadlocked`: without callbacks outstanding on the connection that is
  disconnected, no interleaving deadlocks; with one that is due, the next disconnect does, for good.
-/

namespace FluxMQ.Mqtt

open Function Transition List

/-- A packet with what is to be run when it is sent: `MarkSentIfEpoch` for a packet identifier. -/
structure SendItem where
  onSent : Option Nat := none
  deriving Repr, DecidableEq

def controlBurst : Nat := 32

/-- Where the send loop is. -/
inductive LoopPhase where
  /-- Phase 1, with `count` control packets drained. -/
  | control (count : Nat)
  /-- Phase 2: one data packet after a full burst. -/
  | oneData
  /-- Phase 3: control packets are checked again, and one data packet is packed. -/
  | recheck (packedData : Bool)
  /-- `flushAndNotify` begins. -/
  | flush
  /-- The callbacks are run. -/
  | notify
  /-- Phase 4: blocked until the next item. -/
  | block
  | exited
  deriving Repr, DecidableEq

/-- The send loop. -/
structure SendLoop where
  phase : LoopPhase := .control 0
  /-- The callbacks of what was packed. -/
  pending : List Nat := []
  didWork : Bool := false
  deriving Repr, DecidableEq

/-- What another goroutine does with the session and its connection. -/
inductive Task where
  | idle
  /-- `WriteControlPacket`. -/
  | writingControl (item : SendItem)
  /-- `TryWriteDataPacket`, as `deliverQoS` calls it with the connection of its lease. -/
  | writingData (item : SendItem)
  /-- `writeSync` with `sendMu` held, before the packet is packed. -/
  | packing (item : SendItem)
  /-- `writeSync` with `sendMu` held: the callback is to be run. -/
  | calling (packetID : Nat)
  /-- `DisconnectWithCause` waits for the mutex of the session. -/
  | disconnecting
  /-- DISCONNECT is to be written, with the mutex held. -/
  | sendingDisconnect
  /-- DISCONNECT is packed, with the mutex and `sendMu` held. -/
  | packingDisconnect
  /-- The connection is to be closed, with the mutex held. -/
  | closing
  /-- `Close` waits for the send loop, with the mutex held. -/
  | awaitingExit
  deriving Repr, DecidableEq

/-- A session with its connection and the goroutines that use them. -/
structure Connection where
  /-- There are send queues and a send loop. -/
  async : Bool
  controlCap : Nat := 1
  dataCap : Nat := 4
  disconnectOnFull : Bool := false
  /-- The session speaks MQTT 5. -/
  v5 : Bool := true
  /-- The session is connected. -/
  connected : Bool := true
  /-- Who holds the mutex of the session. -/
  mutex : Option Nat := none
  /-- Who holds `sendMu`. -/
  sendMu : Option Nat := none
  /-- `markClosed` was called. -/
  closed : Bool := false
  controlCh : List SendItem := []
  dataCh : List SendItem := []
  loop : SendLoop := {}
  tasks : Nat → Task := fun _ => .idle

/-- What a `select` of the send loop takes. -/
inductive Select where
  | closeCh
  | controlCh
  | dataCh
  | default
  deriving Repr, DecidableEq

/-- One step of one goroutine. -/
inductive Action where
  /-- A goroutine that is idle begins something. -/
  | start (g : Nat) (task : Task)
  /-- A goroutine goes on. `fails` is the answer of the socket, or that a closed connection is
  noticed in time. -/
  | advance (g : Nat) (fails : Bool)
  /-- The send loop goes on. -/
  | loop (select : Select) (fails : Bool)
  deriving Repr, DecidableEq

namespace SendLoop

variable (l : SendLoop)

/-- The callback of a packet that was packed waits for the flush. -/
def pack (item : SendItem) (phase : LoopPhase) : SendLoop :=
  { phase, pending := l.pending ++ item.onSent.toList, didWork := true }

/-- Where the loop goes on after the callbacks: a cycle that did nothing blocks. -/
def afterNotify : SendLoop :=
  if l.didWork then { phase := .control 0 } else { phase := .block }

/-- The next callback is due. -/
def CallbackDue : Prop := l.phase = .notify ∧ l.pending ≠ []

instance : Decidable l.CallbackDue := inferInstanceAs (Decidable (_ ∧ _))

end SendLoop

namespace Connection

variable (c : Connection)

def goto (g : Nat) (task : Task) : Connection :=
  { c with tasks := Function.update c.tasks g task }

/-- The send loop ends and releases what is queued. -/
def exitLoop : Connection :=
  { c with controlCh := [], dataCh := [], loop := { c.loop with phase := .exited, pending := [] } }

/-- An item is packed into the buffer, or the connection is closed. -/
def doPack (item : SendItem) (phase : LoopPhase) (fails : Bool) : Connection :=
  if fails then { c with closed := true }.exitLoop
  else { c with loop := c.loop.pack item phase }

/-- The send loop takes a step. A step that has to wait, or takes what is not ready, does nothing. -/
def loopStep (select : Select) (fails : Bool) : Connection :=
  match c.loop.phase, select with
  | .control count, .controlCh =>
    match c.controlCh with
    | [] => c
    | item :: rest =>
      { c with controlCh := rest }.doPack item
        (if count + 1 = controlBurst then .oneData else .control (count + 1)) fails
  | .control _, .default =>
    if c.closed = false ∧ c.controlCh = [] then
      { c with loop := { c.loop with phase := .recheck false } }
    else c
  | .oneData, .dataCh =>
    match c.dataCh with
    | [] => c
    | item :: rest => { c with dataCh := rest }.doPack item .flush fails
  | .oneData, .default =>
    if c.closed = false ∧ c.dataCh = [] then { c with loop := { c.loop with phase := .flush } } else c
  | .recheck packedData, .controlCh =>
    match c.controlCh with
    | [] => c
    | item :: rest => { c with controlCh := rest }.doPack item (.recheck packedData) fails
  -- A control packet may come between the two checks.
  | .recheck false, .dataCh =>
    match c.dataCh with
    | [] => c
    | item :: rest => { c with dataCh := rest }.doPack item (.recheck true) fails
  | .recheck packedData, .default =>
    if (if packedData then c.controlCh = [] else c.dataCh = []) then
      { c with loop := { c.loop with phase := .flush } }
    else c
  | .flush, _ =>
    if fails ∧ c.loop.didWork then { c with closed := true }.exitLoop
    else { c with loop := { c.loop with phase := .notify } }
  | .notify, _ =>
    match c.loop.pending with
    | [] => { c with loop := c.loop.afterNotify }
    | _ :: rest =>
      -- `MarkSentIfEpoch` takes the mutex of the session and gives it back.
      if c.mutex = none then { c with loop := { c.loop with pending := rest } } else c
  | .block, .controlCh =>
    match c.controlCh with
    | [] => c
    | item :: rest => { c with controlCh := rest }.doPack item .flush fails
  | .block, .dataCh =>
    match c.dataCh with
    | [] => c
    | item :: rest => { c with dataCh := rest }.doPack item .flush fails
  | .control _, .closeCh | .oneData, .closeCh | .block, .closeCh =>
    if c.closed then c.exitLoop else c
  | _, _ => c

/-- A goroutine takes a step. A step that has to wait does nothing. -/
def taskStep (g : Nat) (fails : Bool) : Connection :=
  match c.tasks g with
  | .idle => c
  | .writingControl item =>
    if c.closed ∧ fails then c.goto g .idle
    else if c.async then
      if c.controlCh.length < c.controlCap then
        { c.goto g .idle with controlCh := c.controlCh ++ [item] }
      else if c.closed then c.goto g .idle else c
    else if c.sendMu = none then { c.goto g (.packing item) with sendMu := some g } else c
  | .writingData item =>
    if c.closed ∧ fails then c.goto g .idle
    else if c.async then
      if c.dataCh.length < c.dataCap then { c.goto g .idle with dataCh := c.dataCh ++ [item] }
      else { c.goto g .idle with closed := c.closed || c.disconnectOnFull }
    else if c.sendMu = none then { c.goto g (.packing item) with sendMu := some g } else c
  | .packing item =>
    if c.closed ∨ fails then { c.goto g .idle with sendMu := none }
    else
      match item.onSent with
      | some packetID => c.goto g (.calling packetID)
      | none => { c.goto g .idle with sendMu := none }
  | .calling _ =>
    if c.mutex = none then { c.goto g .idle with sendMu := none } else c
  | .disconnecting =>
    if c.mutex ≠ none then c
    else if c.connected then
      { c.goto g (if c.v5 then .sendingDisconnect else .closing) with mutex := some g }
    else c.goto g .idle
  | .sendingDisconnect =>
    if c.closed ∧ fails then c.goto g .closing
    else if c.async then
      if c.controlCh.length < c.controlCap then
        { c.goto g .closing with controlCh := c.controlCh ++ [{}] }
      else if c.closed then c.goto g .closing else c
    else if c.sendMu = none then { c.goto g .packingDisconnect with sendMu := some g } else c
  | .packingDisconnect => { c.goto g .closing with sendMu := none }
  | .closing =>
    if c.async then { c.goto g .awaitingExit with closed := true }
    else { c.goto g .idle with closed := true, connected := false, mutex := none }
  | .awaitingExit =>
    if c.loop.phase = .exited then { c.goto g .idle with connected := false, mutex := none } else c

/-- What happens. -/
def step : Action → Connection
  | .start g task =>
    match c.tasks g, task with
    | .idle, .writingControl _ | .idle, .writingData _ | .idle, .disconnecting => c.goto g task
    | _, _ => c
  | .advance g fails => c.taskStep g fails
  | .loop select fails => if c.async then c.loopStep select fails else c

/-- What a sequence of steps leads to. -/
abbrev run (actions : List Action) : Connection :=
  Transition.run step c actions

/-- The goroutine waits for the connection: for the send loop to exit, for `sendMu`, or for room in a
send queue. -/
def AwaitsWriter (g : Nat) : Prop :=
  match c.tasks g with
  | .awaitingExit => c.loop.phase ≠ .exited
  | .sendingDisconnect =>
    c.closed = false ∧
      if c.async then c.controlCap ≤ c.controlCh.length else c.sendMu ≠ none
  | _ => False

/-- The writer waits for the mutex of the session: the send loop, or who holds `sendMu`. -/
def WriterAwaitsMutex : Prop :=
  c.mutex ≠ none ∧
    if c.async then c.loop.CallbackDue else ∃ g packetID, c.sendMu = some g ∧ c.tasks g = .calling packetID

/-- The holder of the mutex waits for the writer, which waits for the mutex. -/
def Deadlocked : Prop :=
  (∃ g, c.mutex = some g ∧ c.AwaitsWriter g) ∧ c.WriterAwaitsMutex

/-! ### Without callbacks -/

/-- A task that is not about to run a callback, nor to pack a packet with one. -/
def Harmless : Task → Prop
  | .packing item => item.onSent = none
  | .calling _ => False
  | _ => True

/-- No callback is outstanding on the connection. -/
structure Quiet : Prop where
  queued : ∀ item, item ∈ c.controlCh ∨ item ∈ c.dataCh → item.onSent = none
  pending : c.loop.pending = []
  tasks : ∀ g, Harmless (c.tasks g)

/-- A disconnect takes the mutex only when no callback is outstanding, and nobody hands a packet with
a callback to the connection while the mutex is held. -/
def Calm : Action → Prop
  | .advance g _ =>
    match c.tasks g with
    | .disconnecting => c.mutex = none → c.Quiet
    | .writingControl item | .writingData item => item.onSent ≠ none → c.mutex = none
    | _ => True
  | _ => True

variable {c}

lemma Quiet.doPack (h : c.Quiet) {item : SendItem} (hitem : item.onSent = none)
    (phase : LoopPhase) (fails : Bool) : (c.doPack item phase fails).Quiet := by
  unfold Connection.doPack
  split
  · exact ⟨by simp [exitLoop], rfl, h.tasks⟩
  · refine ⟨h.queued, ?_, h.tasks⟩
    simp [SendLoop.pack, h.pending, hitem]

/-- What a step of the send loop can be. -/
inductive LoopEffect (c : Connection) (fails : Bool) : Connection → Prop where
  | waits : LoopEffect c fails c
  | control {item : SendItem} {rest : List SendItem} (phase : LoopPhase)
      (hqueue : c.controlCh = item :: rest) (hphase : c.loop.phase ≠ .notify) :
      LoopEffect c fails ({ c with controlCh := rest }.doPack item phase fails)
  | data {item : SendItem} {rest : List SendItem} (phase : LoopPhase)
      (hqueue : c.dataCh = item :: rest) (hphase : c.loop.phase ≠ .notify) :
      LoopEffect c fails ({ c with dataCh := rest }.doPack item phase fails)
  | moves {l : SendLoop} (hpending : l.pending <:+ c.loop.pending)
      (hmutex : c.loop.CallbackDue → c.mutex = none) : LoopEffect c fails { c with loop := l }
  | exits (closed : Bool) (hphase : c.loop.phase ≠ .notify) :
      LoopEffect c fails { c with closed }.exitLoop

lemma loopStep_effect (c : Connection) (select : Select) (fails : Bool) :
    LoopEffect c fails (c.loopStep select fails) := by
  unfold loopStep
  by_cases hne : c.loop.phase = .notify
  · simp only [hne]
    split
    · refine .moves ?_ fun hdue => absurd ‹_› hdue.2
      unfold SendLoop.afterNotify
      split <;> exact nil_suffix
    rename_i packetID rest hpending
    split
    · exact .moves (hpending ▸ suffix_cons packetID rest) fun _ => ‹_›
    · exact .waits
  have hmoves {phase : LoopPhase} : LoopEffect c fails { c with loop := { c.loop with phase } } :=
    .moves (suffix_refl _) fun hdue => absurd hdue.1 hne
  have hcontrol {phase : LoopPhase} :
      LoopEffect c fails (match c.controlCh with
        | [] => c
        | item :: rest => { c with controlCh := rest }.doPack item phase fails) := by
    split
    · exact .waits
    · exact .control phase ‹_› hne
  have hdata {phase : LoopPhase} :
      LoopEffect c fails (match c.dataCh with
        | [] => c
        | item :: rest => { c with dataCh := rest }.doPack item phase fails) := by
    split
    · exact .waits
    · exact .data phase ‹_› hne
  have hcloses : LoopEffect c fails (if c.closed then c.exitLoop else c) := by
    split
    · exact .exits c.closed hne
    · exact .waits
  cases hphase : c.loop.phase with
  | notify => exact absurd hphase hne
  | control count =>
    cases select with
    | controlCh => exact hcontrol
    | «default» =>
      dsimp only
      split
      · exact hmoves
      · exact .waits
    | closeCh => exact hcloses
    | dataCh => exact .waits
  | oneData =>
    cases select with
    | dataCh => exact hdata
    | «default» =>
      dsimp only
      split
      · exact hmoves
      · exact .waits
    | closeCh => exact hcloses
    | controlCh => exact .waits
  | recheck packedData =>
    cases select with
    | controlCh => exact hcontrol
    | dataCh =>
      cases packedData with
      | false => exact hdata
      | true => exact .waits
    | «default» =>
      dsimp only
      by_cases hempty : if packedData = true then c.controlCh = [] else c.dataCh = []
      · rw [if_pos hempty]
        exact hmoves
      · rw [if_neg hempty]
        exact .waits
    | closeCh => exact .waits
  | flush =>
    dsimp only
    split
    · exact .exits true hne
    · exact hmoves
  | block =>
    cases select with
    | controlCh => exact hcontrol
    | dataCh => exact hdata
    | closeCh => exact hcloses
    | «default» => exact .waits
  | exited => exact .waits

variable {c' : Connection}

lemma Quiet.of_loopEffect {fails : Bool} (h : c.Quiet)
    (heffect : LoopEffect c fails c') : c'.Quiet := by
  cases heffect with
  | waits => exact h
  | @control item rest phase hqueue hphase =>
    have hrest : ({ c with controlCh := rest } : Connection).Quiet :=
      ⟨fun i hi => h.queued i (hi.imp_left fun hi => hqueue ▸ mem_cons_of_mem item hi),
        h.pending, h.tasks⟩
    exact hrest.doPack (h.queued item (.inl (hqueue ▸ mem_cons_self))) phase fails
  | @data item rest phase hqueue hphase =>
    have hrest : ({ c with dataCh := rest } : Connection).Quiet :=
      ⟨fun i hi => h.queued i (hi.imp_right fun hi => hqueue ▸ mem_cons_of_mem item hi),
        h.pending, h.tasks⟩
    exact hrest.doPack (h.queued item (.inr (hqueue ▸ mem_cons_self))) phase fails
  | moves hpending hmutex =>
    rw [h.pending] at hpending
    exact ⟨h.queued, suffix_nil.1 hpending, h.tasks⟩
  | exits closed hphase => exact ⟨by simp [exitLoop], rfl, h.tasks⟩

variable {g : Nat}

/-- A task moves on and brings no callback. -/
lemma Quiet.of_task (h : c.Quiet) (task : Task)
    (htasks : c'.tasks = update c.tasks g task) (htask : Harmless task) (hloop : c'.loop = c.loop)
    (hcontrol : ∀ item ∈ c'.controlCh, item ∈ c.controlCh ∨ item.onSent = none)
    (hdata : ∀ item ∈ c'.dataCh, item ∈ c.dataCh ∨ item.onSent = none) : c'.Quiet := by
  refine ⟨fun item hitem => ?_, hloop ▸ h.pending, fun i => ?_⟩
  · rcases hitem with hitem | hitem
    · exact (hcontrol item hitem).elim (fun hmem => h.queued item (.inl hmem)) id
    · exact (hdata item hitem).elim (fun hmem => h.queued item (.inr hmem)) id
  rw [htasks, update_apply]
  split
  · exact htask
  · exact h.tasks i

/-- A connection without callbacks keeps that through every step of a task that brings none. -/
lemma Quiet.taskStep (h : c.Quiet) {fails : Bool}
    (hbrings : ∀ item, c.tasks g = .writingControl item ∨ c.tasks g = .writingData item →
      item.onSent = none) : (c.taskStep g fails).Quiet := by
  have hadded {item : SendItem} (hitem : item.onSent = none) {queue : List SendItem} :
      ∀ i ∈ queue ++ [item], i ∈ queue ∨ i.onSent = none := by
    intro i hi
    refine (mem_append.1 hi).imp_right fun hi => ?_
    rwa [mem_singleton.1 hi]
  have hmoves {c' : Connection} (task : Task) (htasks : c'.tasks = update c.tasks g task)
      (htask : Harmless task) (hloop : c'.loop = c.loop) (hcontrol : c'.controlCh = c.controlCh)
      (hdata : c'.dataCh = c.dataCh) : c'.Quiet :=
    h.of_task task htasks htask hloop (fun i hi => .inl (hcontrol ▸ hi)) fun i hi => .inl (hdata ▸ hi)
  unfold Connection.taskStep
  cases htask : c.tasks g with
  | idle => exact h
  | writingControl item =>
    have hitem := hbrings item (.inl htask)
    dsimp only
    split_ifs
    · exact hmoves _ rfl trivial rfl rfl rfl
    · exact h.of_task .idle rfl trivial rfl (hadded hitem) fun i hi => .inl hi
    · exact hmoves _ rfl trivial rfl rfl rfl
    · exact h
    · exact hmoves (.packing item) rfl hitem rfl rfl rfl
    · exact h
  | writingData item =>
    have hitem := hbrings item (.inr htask)
    dsimp only
    split_ifs
    · exact hmoves _ rfl trivial rfl rfl rfl
    · exact h.of_task .idle rfl trivial rfl (fun i hi => .inl hi) (hadded hitem)
    · exact hmoves .idle rfl trivial rfl rfl rfl
    · exact hmoves (.packing item) rfl hitem rfl rfl rfl
    · exact h
  | packing item =>
    have hitem : item.onSent = none := by
      have hharmless := h.tasks g
      rwa [htask] at hharmless
    dsimp only
    split_ifs
    · exact hmoves .idle rfl trivial rfl rfl rfl
    · rw [hitem]
      exact hmoves .idle rfl trivial rfl rfl rfl
  | calling packetID =>
    have hharmless := h.tasks g
    rw [htask] at hharmless
    exact hharmless.elim
  | disconnecting =>
    dsimp only
    split_ifs
    · exact h
    · exact hmoves .sendingDisconnect rfl trivial rfl rfl rfl
    · exact hmoves .closing rfl trivial rfl rfl rfl
    · exact hmoves _ rfl trivial rfl rfl rfl
  | sendingDisconnect =>
    dsimp only
    split_ifs
    · exact hmoves _ rfl trivial rfl rfl rfl
    · exact h.of_task .closing rfl trivial rfl (hadded rfl) fun i hi => .inl hi
    · exact hmoves _ rfl trivial rfl rfl rfl
    · exact h
    · exact hmoves .packingDisconnect rfl trivial rfl rfl rfl
    · exact h
  | packingDisconnect => exact hmoves .closing rfl trivial rfl rfl rfl
  | closing =>
    dsimp only
    split_ifs
    · exact hmoves .awaitingExit rfl trivial rfl rfl rfl
    · exact hmoves .idle rfl trivial rfl rfl rfl
  | awaitingExit =>
    dsimp only
    split_ifs
    · exact hmoves .idle rfl trivial rfl rfl rfl
    · exact h

/-- A phase of a task that holds the mutex of the session. -/
def HoldsMutex : Task → Bool
  | .sendingDisconnect | .packingDisconnect | .closing | .awaitingExit => true
  | _ => false

/-- The mutex is held by the task that says so, and by no other. -/
def Owned (c : Connection) : Prop :=
  ∀ g, HoldsMutex (c.tasks g) = true ↔ c.mutex = some g

lemma Owned.of_task (h : c.Owned) (task : Task)
    (htasks : c'.tasks = update c.tasks g task) (hmutex : c'.mutex = c.mutex)
    (htask : HoldsMutex task = HoldsMutex (c.tasks g)) : c'.Owned := by
  intro i
  rw [htasks, hmutex, update_apply]
  split
  · rename_i hi
    rw [htask, hi]
    exact h g
  · exact h i

/-- What a step of a task does to the mutex. -/
lemma Owned.taskStep (h : c.Owned) (g : Nat) (fails : Bool) : (c.taskStep g fails).Owned := by
  have htakes {c' : Connection} {task : Task} (htasks : c'.tasks = update c.tasks g task)
      (hfree : c.mutex = none) (hmutex : c'.mutex = some g) (htask : HoldsMutex task = true) :
      c'.Owned := by
    intro i
    rw [htasks, hmutex, update_apply]
    split
    · simp [htask, ‹i = g›]
    · have hnot := h i
      rw [hfree] at hnot
      simpa [Ne.symm ‹¬ i = g›] using hnot
  have hreleases {c' : Connection} {task : Task}
      (htasks : c'.tasks = update c.tasks g task) (hheld : HoldsMutex (c.tasks g) = true)
      (hmutex : c'.mutex = none) (htask : HoldsMutex task = false) : c'.Owned := by
    intro i
    rw [htasks, hmutex, update_apply]
    split
    · simp [htask]
    · have hnot := h i
      rw [(h g).1 hheld] at hnot
      simpa [Ne.symm ‹¬ i = g›] using hnot
  unfold Connection.taskStep
  cases htask : c.tasks g with
  | idle => exact h
  | writingControl item | writingData item | sendingDisconnect =>
    dsimp only
    split_ifs <;> first | exact h | exact h.of_task _ rfl rfl (by rw [htask]; rfl)
  | packing item =>
    dsimp only
    split_ifs
    · exact h.of_task _ rfl rfl (by rw [htask]; rfl)
    · split
      all_goals exact h.of_task _ rfl rfl (by rw [htask]; rfl)
  | calling packetID =>
    dsimp only
    split_ifs
    · exact h.of_task _ rfl rfl (by rw [htask]; rfl)
    · exact h
  | disconnecting =>
    dsimp only
    split_ifs with hfree
    · exact h
    · exact htakes rfl (by simpa using hfree) rfl rfl
    · exact htakes rfl (by simpa using hfree) rfl rfl
    · exact h.of_task _ rfl rfl (by rw [htask]; rfl)
  | packingDisconnect => exact h.of_task _ rfl rfl (by rw [htask]; rfl)
  | closing =>
    dsimp only
    split_ifs
    · exact h.of_task _ rfl rfl (by rw [htask]; rfl)
    · exact hreleases rfl (by rw [htask]; rfl) rfl rfl
  | awaitingExit =>
    dsimp only
    split_ifs
    · exact hreleases rfl (by rw [htask]; rfl) rfl rfl
    · exact h

/-- The send loop leaves the tasks and the mutex alone. -/
lemma LoopEffect.frame {fails : Bool} (h : LoopEffect c fails c') :
    c'.tasks = c.tasks ∧ c'.mutex = c.mutex ∧ c'.async = c.async := by
  have hpack (d : Connection) (item : SendItem) (phase : LoopPhase) :
      (d.doPack item phase fails).tasks = d.tasks ∧ (d.doPack item phase fails).mutex = d.mutex ∧
        (d.doPack item phase fails).async = d.async := by
    unfold doPack
    split <;> exact ⟨rfl, rfl, rfl⟩
  cases h with
  | waits | moves | exits => exact ⟨rfl, rfl, rfl⟩
  | control phase | data phase => exact hpack ..

/-- Beginning something leaves everything but the task alone, and the task holds nothing yet. -/
lemma step_start (c : Connection) (g : Nat) (task : Task) :
    c.step (.start g task) = c ∨ c.step (.start g task) = c.goto g task ∧ c.tasks g = .idle ∧
      Harmless task ∧ HoldsMutex task = false := by
  unfold step
  dsimp only
  split
  case h_4 => exact .inl rfl
  all_goals exact .inr ⟨rfl, ‹_›, trivial, rfl⟩

lemma Owned.step (h : c.Owned) (a : Action) : (c.step a).Owned := by
  cases a with
  | start g task =>
    rcases c.step_start g task with heq | ⟨heq, hidle, -, htask⟩
    · rwa [heq]
    · rw [heq]
      exact h.of_task task rfl rfl (by rw [htask, hidle]; rfl)
  | advance g fails => exact h.taskStep g fails
  | loop select fails =>
    unfold Connection.step
    dsimp only
    split
    · obtain ⟨htasks, hmutex, -⟩ := (loopStep_effect c select fails).frame
      simpa only [Owned, htasks, hmutex] using h
    · exact h

/-- What a step of a task can do to the mutex. -/
inductive MutexEffect (c : Connection) (g : Nat) (c' : Connection) : Prop where
  | keeps (h : c'.mutex = c.mutex)
  | takes (htask : c.tasks g = .disconnecting) (hfree : c.mutex = none) (h : c'.mutex = some g)
  | releases (hheld : HoldsMutex (c.tasks g) = true)
      (hdone : c.async = true → c.loop.phase = .exited) (h : c'.mutex = none)

lemma taskStep_mutex (c : Connection) (g : Nat) (fails : Bool) :
    MutexEffect c g (c.taskStep g fails) := by
  unfold taskStep
  cases htask : c.tasks g with
  | idle | packingDisconnect => exact .keeps rfl
  | writingControl item | writingData item | calling packetID | sendingDisconnect =>
    dsimp only
    split_ifs <;> exact .keeps rfl
  | packing item =>
    dsimp only
    split_ifs
    · exact .keeps rfl
    · split <;> exact .keeps rfl
  | disconnecting =>
    dsimp only
    split_ifs with hfree
    · exact .keeps rfl
    · exact .takes htask (by simpa using hfree) rfl
    · exact .takes htask (by simpa using hfree) rfl
    · exact .keeps rfl
  | closing =>
    dsimp only
    split_ifs with hasync
    · exact .keeps rfl
    · exact .releases (by rw [htask]; rfl) (fun h => absurd h hasync) rfl
  | awaitingExit =>
    dsimp only
    split_ifs with hexited
    · exact .releases (by rw [htask]; rfl) (fun _ => hexited) rfl
    · exact .keeps rfl

/-- A task leaves the send loop alone. -/
lemma taskStep_loop (c : Connection) (g : Nat) (fails : Bool) :
    (c.taskStep g fails).loop = c.loop ∧ (c.taskStep g fails).async = c.async := by
  unfold taskStep
  split <;> try exact ⟨rfl, rfl⟩
  all_goals try split_ifs
  all_goals try exact ⟨rfl, rfl⟩
  split <;> exact ⟨rfl, rfl⟩

/-- While the mutex is held, no callback is outstanding. -/
def QuietWhileHeld (c : Connection) : Prop := c.mutex ≠ none → c.Quiet

lemma QuietWhileHeld.step (h : c.QuietWhileHeld) {a : Action} (hcalm : c.Calm a) :
    (c.step a).QuietWhileHeld := by
  intro hheld
  cases a with
  | start g task =>
    rcases c.step_start g task with heq | ⟨heq, -, hharmless, -⟩
    · rw [heq] at hheld ⊢
      exact h hheld
    · rw [heq] at hheld ⊢
      exact (h hheld).of_task task rfl hharmless rfl (fun i hi => .inl hi) fun i hi => .inl hi
  | advance g fails =>
    by_cases hfree : c.mutex = none
    · have htask : c.tasks g = .disconnecting := by
        rcases c.taskStep_mutex g fails with h | h | ⟨-, -, h⟩
        · exact absurd (h.trans hfree) hheld
        · exact h
        · exact absurd h hheld
      have hquiet : c.Quiet := by
        unfold Calm at hcalm
        simp only [htask] at hcalm
        exact hcalm hfree
      exact hquiet.taskStep fun item hitem => by simp [htask] at hitem
    · refine (h hfree).taskStep fun item hitem => ?_
      by_contra hsome
      unfold Calm at hcalm
      rcases hitem with hitem | hitem
      all_goals
        simp only [hitem] at hcalm
        exact hfree (hcalm hsome)
  | loop select fails =>
    unfold Connection.step at hheld ⊢
    dsimp only at hheld ⊢
    split at hheld
    · rename_i hasync
      rw [if_pos hasync]
      have heffect := loopStep_effect c select fails
      exact (h (heffect.frame.2.1 ▸ hheld)).of_loopEffect heffect
    · rename_i hasync
      rw [if_neg hasync]
      exact h hheld

/-- Who holds the mutex of a connection without callbacks does not wait for a writer that waits. -/
lemma QuietWhileHeld.not_deadlocked (h : c.QuietWhileHeld) : ¬ c.Deadlocked := by
  rintro ⟨-, hheld, hwaits⟩
  have hquiet := h hheld
  split at hwaits
  · exact hwaits.2 hquiet.pending
  obtain ⟨g, packetID, -, htask⟩ := hwaits
  have hharmless := hquiet.tasks g
  rw [htask] at hharmless
  exact hharmless

lemma deadlocked_of_awaitingExit (hasync : c.async = true) (hheld : c.mutex = some g)
    (htask : c.tasks g = .awaitingExit) (hdue : c.loop.CallbackDue) : c.Deadlocked := by
  refine ⟨⟨g, hheld, ?_⟩, by simp [hheld], by simpa [hasync] using hdue⟩
  simp [AwaitsWriter, htask, hdue.1]

lemma deadlocked_of_sendMu {g h p : Nat} (hsync : c.async = false) (hheld : c.mutex = some g)
    (htask : c.tasks g = .sendingDisconnect) (hclosed : c.closed = false) (hsendMu : c.sendMu = some h)
    (hcalling : c.tasks h = .calling p) : c.Deadlocked := by
  refine ⟨⟨g, hheld, ?_⟩, by simp [hheld], ?_⟩
  · simp [AwaitsWriter, htask, hclosed, hsync, hsendMu]
  · simp [hsync, hsendMu, hcalling]

/-! ### With a callback that is due -/

/-- A callback is due in the send loop, and a task that disconnects the session holds the mutex. -/
structure Doomed (c : Connection) (g : Nat) : Prop where
  async : c.async = true
  due : c.loop.CallbackDue
  held : c.mutex = some g
  owned : c.Owned

section

variable {g : Nat} (h : c.Doomed g)
include h

lemma Doomed.step (a : Action) : (c.step a).Doomed g := by
  obtain ⟨hasync, hdue, hheld, howned⟩ := h
  have howned' := howned.step a
  cases a with
  | start i task =>
    rcases c.step_start i task with heq | ⟨heq, -⟩
    · rw [heq]
      exact ⟨hasync, hdue, hheld, howned⟩
    · rw [heq] at howned' ⊢
      exact ⟨hasync, hdue, hheld, howned'⟩
  | advance i fails =>
    obtain ⟨hloop, hasync'⟩ := c.taskStep_loop i fails
    refine ⟨hasync'.trans hasync, ?_, ?_, howned'⟩
    · exact hloop.symm ▸ hdue
    rcases c.taskStep_mutex i fails with h | ⟨-, hfree, -⟩ | ⟨-, hdone, -⟩
    · exact h.trans hheld
    · exact nomatch hheld.symm.trans hfree
    · exact nomatch hdue.1.symm.trans (hdone hasync)
  | loop select fails =>
    unfold Connection.step at howned' ⊢
    simp only [hasync, if_true] at howned' ⊢
    have hnotify : ¬ c.loop.phase ≠ .notify := fun hne => hne hdue.1
    -- The send loop is to run a callback and waits for the mutex.
    have hwaits : c.loopStep select fails = c := by
      have heffect := loopStep_effect c select fails
      generalize c.loopStep select fails = c' at heffect
      cases heffect with
      | waits => rfl
      | control _ _ hphase | data _ _ hphase | exits _ hphase => exact absurd hphase hnotify
      | moves _ hmutex => exact nomatch hheld.symm.trans (hmutex hdue)
    rw [hwaits]
    exact ⟨hasync, hdue, hheld, howned⟩

lemma Doomed.run (actions : List Action) : (c.run actions).Doomed g :=
  invariant_run (I := fun c : Connection => c.Doomed g) (P := fun _ _ => True)
    (fun _ a h _ => h.step a) h (along_of_forall fun _ _ _ => trivial)

lemma Doomed.deadlocked_of_awaits (hawaits : c.AwaitsWriter g) : c.Deadlocked :=
  ⟨⟨g, h.held, hawaits⟩, by simp [h.held], by simpa [h.async] using h.due⟩

attribute [simp] Connection.step

attribute [simp] taskStep

/-- `Close` waits for the send loop, which is not going to exit. -/
lemma Doomed.awaits_of_closing (htask : c.tasks g = .closing) :
    (c.step (.advance g false)).tasks g = .awaitingExit := by
  simp [htask, h.async, goto]

lemma Doomed.awaitsWriter (htask : c.tasks g = .awaitingExit) : c.AwaitsWriter g := by
  simp [AwaitsWriter, htask, h.due.1]

lemma Doomed.keeps_awaiting (htask : c.tasks g = .awaitingExit) :
    c.step (.advance g false) = c := by
  simp [htask, h.due.1]

/-- DISCONNECT finds room in the control queue, or waits for room that the send loop will not make. -/
lemma Doomed.sends (htask : c.tasks g = .sendingDisconnect) :
    (c.step (.advance g false)).tasks g = .closing ∨
      c.step (.advance g false) = c ∧ c.AwaitsWriter g := by
  by_cases hroom : c.controlCh.length < c.controlCap
  · left
    simp [htask, h.async, hroom, goto]
  by_cases hclosed : c.closed = true
  · left
    simp [htask, h.async, hroom, hclosed, goto]
  · right
    refine ⟨by simp [htask, h.async, hroom, hclosed], ?_⟩
    simpa [AwaitsWriter, htask, h.async, hclosed] using hroom

end

/-- A session is disconnected while its send loop is to run a callback: three steps later the two
wait for each other, in whichever way the disconnect has come to wait. -/
lemma Doomed.deadlocked (hasync : c.async = true) (hdue : c.loop.CallbackDue)
    (hfree : c.mutex = none) (howned : c.Owned) (hconnected : c.connected = true)
    (htask : c.tasks g = .disconnecting) :
    (c.run (replicate 3 (.advance g false))).Doomed g ∧
      (c.run (replicate 3 (.advance g false))).Deadlocked := by
  have hfirst : (c.step (.advance g false)).Doomed g := by
    obtain ⟨hloop, hasync'⟩ := c.taskStep_loop g false
    refine ⟨hasync'.trans hasync, ?_, ?_, howned.step _⟩
    · exact (show (c.step (.advance g false)).loop = c.loop from hloop).symm ▸ hdue
    · simp [htask, hfree, hconnected]
  have hsecond := hfirst.step (.advance g false)
  have hthird := hsecond.step (.advance g false)
  refine ⟨hthird, hthird.deadlocked_of_awaits ?_⟩
  by_cases hv5 : c.v5 = true
  · have htask1 : (c.step (.advance g false)).tasks g = .sendingDisconnect := by
      simp [htask, hfree, hconnected, hv5, goto]
    rcases hfirst.sends htask1 with hclosing | ⟨hsame, hawaits⟩
    · exact hthird.awaitsWriter (hsecond.awaits_of_closing hclosing)
    · rwa [hsame, hsame]
  · have htask1 : (c.step (.advance g false)).tasks g = .closing := by
      simp [htask, hfree, hconnected, hv5, goto]
    have hawaiting := hfirst.awaits_of_closing htask1
    rw [hsecond.keeps_awaiting hawaiting]
    exact hsecond.awaitsWriter hawaiting

/-- No interleaving deadlocks in which a disconnect takes the mutex only without a callback
outstanding, and no packet with a callback is handed to the connection while the mutex is held. And
this is needed: a disconnect that takes the mutex with a callback due in the send loop deadlocks, and
the mutex is never released. -/
theorem never_deadlocked {c : Connection} (hidle : ∀ g, c.tasks g = .idle) (hfree : c.mutex = none) :
    (∀ actions, Transition.Along step Calm c actions → ¬ (c.run actions).Deadlocked) ∧
    ∀ actions g, (c.run actions).async = true → (c.run actions).loop.CallbackDue →
      (c.run actions).mutex = none → (c.run actions).connected = true →
      (c.run actions).tasks g = .disconnecting →
      (c.run (actions ++ List.replicate 3 (.advance g false))).Deadlocked ∧
      ∀ more, (c.run (actions ++ List.replicate 3 (.advance g false) ++ more)).mutex = some g := by
  have howned : c.Owned := fun g => by simp [hidle, hfree, HoldsMutex]
  refine ⟨fun actions hcalm => ?_, fun actions g hasync hdue hfree' hconnected htask => ?_⟩
  · have hquiet : (c.run actions).QuietWhileHeld :=
      invariant_run (fun _ _ h hcalm => h.step hcalm) (fun hheld => absurd hfree hheld) hcalm
    exact hquiet.not_deadlocked
  have howned' : (c.run actions).Owned :=
    invariant_run (P := fun _ _ => True) (fun _ a h _ => Owned.step h a) howned
      (along_of_forall fun _ _ _ => trivial)
  obtain ⟨hdoomed, hdead⟩ := Doomed.deadlocked hasync hdue hfree' howned' hconnected htask
  refine ⟨?_, fun more => ?_⟩
  · rwa [run, run_append]
  · rw [run, run_append, run_append]
    exact (hdoomed.run more).held

/-! A PUBLISH is flushed when the session is disconnected. -/

/-- The steps that enqueue, pack and flush a packet with a callback. -/
private def flushed : List Action :=
  [.start 0 (.writingData { onSent := some 1 }), .advance 0 false, .loop .default false,
    .loop .dataCh false, .loop .default false, .loop .default false]

/-- The session is disconnected at once. -/
private def disconnectedAtOnce : List Action :=
  flushed ++ [.start 1 .disconnecting]

/-- The session is disconnected after the callback was run. -/
private def disconnectedAfter : List Action :=
  flushed ++ [.loop .default false] ++ [.start 1 .disconnecting]

private lemma disconnectedAfter_quiet : (run { async := true } disconnectedAfter).Quiet := by
  have hempty : (run { async := true } disconnectedAfter).controlCh = [] ∧
      (run { async := true } disconnectedAfter).dataCh = [] := by decide +kernel
  refine ⟨by simp [hempty], by decide +kernel, fun g => ?_⟩
  -- Task `0` is done with its packet and task `1` is to take the mutex; nobody else has begun.
  have htasks : (run { async := true } disconnectedAfter).tasks =
      update (update (update (fun _ => Task.idle) 0
        (.writingData { onSent := some 1 })) 0 .idle) 1 .disconnecting := rfl
  rw [htasks]
  simp only [update_apply]
  split_ifs <;> trivial

private lemma disconnectedAfter_calm :
    Transition.Along step Calm { async := true } (disconnectedAfter ++ [.advance 1 false]) := by
  refine along_append.2 ⟨?_, fun _ => disconnectedAfter_quiet, trivial⟩
  exact ⟨trivial, fun _ => rfl, trivial, trivial, trivial, trivial, trivial, trivial, trivial⟩

theorem never_deadlocked_disconnectedAfter :
    ¬ (run { async := true } (disconnectedAfter ++ [.advance 1 false])).Deadlocked ∧
      (run { async := true }
        (disconnectedAtOnce ++ List.replicate 3 (.advance 1 false))).Deadlocked := by
  have hlive := never_deadlocked (c := { async := true }) (fun _ => rfl) rfl
  exact ⟨hlive.1 _ disconnectedAfter_calm,
    (hlive.2 disconnectedAtOnce 1 (by decide +kernel) (by decide +kernel) (by decide +kernel)
      (by decide +kernel) (by decide +kernel)).1⟩

/-- A session is disconnected while the callback of a PUBLISH is due, with send queues and without. -/
theorem disconnect_deadlocks :
    (run { async := true } (disconnectedAtOnce ++ List.replicate 3 (.advance 1 false))).Deadlocked ∧
    (run { async := false } [.start 0 (.writingData { onSent := some 1 }), .advance 0 false,
      .advance 0 false, .start 1 .disconnecting, .advance 1 false]).Deadlocked :=
  ⟨deadlocked_of_awaitingExit (g := 1) (by decide +kernel) (by decide +kernel) (by decide +kernel)
      (by decide +kernel),
    deadlocked_of_sendMu (g := 1) (h := 0) (p := 1) (by decide +kernel) (by decide +kernel)
      (by decide +kernel) (by decide +kernel) (by decide +kernel) (by decide +kernel)⟩

end Connection

end FluxMQ.Mqtt
