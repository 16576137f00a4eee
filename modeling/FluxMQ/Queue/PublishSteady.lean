import FluxMQ.Logstorage.Records
import FluxMQ.Queue.Publish

/-!
# What every part of a publish keeps

A publish reports success for names that the node it was sent to does not have, so what it has stored
can only be said of queues that are there. `Steady` says that the nodes of a set have a queue
throughout the publish and take only nodes of the set for its leader. `Step` is the preorder that
every part of a publish respects: what was steady stays so, and what was appended stays noted.
-/

namespace FluxMQ

open Function Adapter

/-! ### What the operations of the store do to the configurations -/

namespace Adapter

variable {cfg : StoreConfig} {a : Adapter} {now : Time} {queueName : String} {e : Envelope}

@[simp]
lemma configs_append : (a.append cfg now queueName e).1.configs = a.configs := by
  unfold append appendRecord
  split
  · rfl
  split
  · rfl
  split <;> rfl

lemma append_queueNotFound (h : (a.append cfg now queueName e).2 = .error .queueNotFound) :
    a.configs queueName = none := by
  unfold append appendRecord at h
  split at h
  · rename_i hnone
    exact Option.isNone_iff_eq_none.1 hnone
  · split at h
    · cases h
    · split at h <;> cases h

/-- A configuration is there after the queue was created if it was there before; it is the old or
the new one. -/
lemma configs_createQueue (now : Time) (config : QueueConfig) {c : QueueConfig} {q : String}
    (h : a.configs q = some c) :
    (a.createQueue now config).1.configs q = some c ∨
      config.name = q ∧ (a.createQueue now config).1.configs q = some config := by
  unfold createQueue
  by_cases hname : config.name = q
  · subst hname
    split
    · exact .inl h
    split
    · split
      · exact .inl h
      · exact .inr ⟨rfl, update_self ..⟩
    · exact .inr ⟨rfl, update_self ..⟩
  have hupdate : update a.configs config.name (some config) q = some c := by
    rw [update_of_ne (Ne.symm hname), h]
  split
  · exact .inl h
  split
  · split
    · exact .inl h
    · exact .inl hupdate
  · exact .inl hupdate

end Adapter

namespace LogFSM

variable {f : LogFSM} {t : StoreReadings} {a : Adapter} {queueName : String} {e : Envelope}

/-- A replicated append leaves the configurations of other queues alone, and creates its own queue
only if it is missing. -/
lemma configs_applyAppend {q : String} {c : QueueConfig} (h : a.configs q = some c) :
    (applyAppend f t a queueName (some e) "").1.configs q = some c := by
  simp only [applyAppend, appendOrCreate, if_true]
  have hfirst : (a.append f.store t.now queueName e).1.configs q = some c := by
    rw [configs_append, h]
  have hmissing : (a.append f.store t.now queueName e).2 = .error .queueNotFound →
      a.configs queueName = none := append_queueNotFound
  generalize a.append f.store t.now queueName e = first at hfirst hmissing
  obtain ⟨a₁, answer⟩ := first
  split
  · rename_i heq
    cases heq
    exact hfirst
  · rename_i a₂ heq
    cases heq
    have hne : queueName ≠ q := by
      rintro rfl
      rw [hmissing rfl] at h
      cases h
    -- The queue that is created is another one.
    have hcreated : (ensureQueueExists f t a₁ queueName).1.configs q = some c := by
      unfold ensureQueueExists
      have hcreate := configs_createQueue t.now (f.autoCreateConfig queueName) hfirst
      generalize a₁.createQueue t.now (f.autoCreateConfig queueName) = created at hcreate
      have hconfigs : created.1.configs q = some c := hcreate.resolve_right fun hname => hne hname.1
      split
      · exact hconfigs
      · exact hconfigs
    generalize ensureQueueExists f t a₁ queueName = ensured at hcreated
    obtain ⟨a₃, err⟩ := ensured
    cases err with
    | some err => exact hcreated
    | none =>
      simp only
      have hsecond : (a₃.append f.store t.now queueName e).1.configs q = some c := by
        rw [configs_append]
        exact hcreated
      generalize a₃.append f.store t.now queueName e = second at hsecond
      obtain ⟨a₄, answer⟩ := second
      cases answer <;> exact hsecond
  · rename_i heq
    cases heq
    exact hfirst

/-- A replicated append that was applied has stored the record. -/
lemma readRecord_applyAppend (f : LogFSM) (t : StoreReadings) (a : Adapter) (queueName : String)
    (e : Envelope) (offset : Nat) (dup : Bool)
    (h : (applyAppend f t a queueName (some e) "").2 = .applied offset dup) :
    (applyAppend f t a queueName (some e) "").1.readRecord queueName offset =
      some (.envelope e) := by
  simp only [applyAppend, appendOrCreate, if_true] at h ⊢
  generalize hfirst : a.append f.store t.now queueName e = first at h
  obtain ⟨a₁, answer⟩ := first
  split at h
  · rename_i heq
    cases heq
    cases h
    exact (append_spec hfirst).1.self
  · rename_i heq
    cases heq
    generalize ensureQueueExists f t a₁ queueName = ensured at h
    obtain ⟨a₃, err⟩ := ensured
    cases err with
    | some err => cases h
    | none =>
      simp only at h ⊢
      generalize hsecond : a₃.append f.store t.now queueName e = second at h
      obtain ⟨a₄, answer⟩ := second
      cases answer with
      | error err => cases h
      | ok offset' =>
        cases h
        exact (append_spec hsecond).1.self
  · cases h

end LogFSM

/-! ### Queues that a publish can rely on -/

/-- The append of a replicated queue waits for the raft group. -/
def QueueConfig.Synchronous (c : QueueConfig) : Prop :=
  c.replication.enabled = true → c.replication.mode ≠ .async

section

variable {ν : Type}

/-- A configuration of a queue that waits for its raft group, if it has one. -/
structure ReliableConfig (replicated : Prop) (c : QueueConfig) : Prop where
  synchronous : c.Synchronous
  replicated : c.replication.enabled = true → replicated

/-- A node has the queue, and takes for its leader only nodes of `N`. -/
structure KnownOn (q : String) (N : Set ν) (replicated : Prop) (n : PublishNode ν) : Prop where
  config : ∃ c, n.store.configs q = some c ∧ ReliableConfig replicated c
  leader : replicated → ∀ l, n.coordinator.leaderId q = some l → l ∈ N

/-- The events that keep a node's knowledge of a queue. -/
def PublishEvent.Keeps (q : String) (N : Set ν) (replicated : Prop) : PublishEvent ν → Prop
  | .createQueue _ config | .updateQueue config => config.name = q → ReliableConfig replicated config
  | .deleteQueue queueName => queueName ≠ q
  | .coordinator view => replicated → ∀ l, view.leaderId q = some l → l ∈ N
  | .append _ _ _ | .consumers _ => True

/-- The nodes of `N` have the queue, and whatever happens they will. -/
structure PublishWorld.Steady (q : String) (N : Set ν) (replicated : Prop) (w : PublishWorld ν) :
    Prop where
  known : ∀ node ∈ N, KnownOn q N replicated (w.nodes node)
  script : ∀ tick ∈ w.script, ∀ event ∈ tick.events, event.1 ∈ N →
    event.2.Keeps q N replicated

variable {q : String} {N : Set ν} {replicated : Prop} {n : PublishNode ν}

/-- Another store with a configuration of the queue. -/
lemma KnownOn.of_store {n' : PublishNode ν} (h : KnownOn q N replicated n)
    (hcoordinator : n'.coordinator = n.coordinator) (hconfig : ∀ c, n.store.configs q = some c →
      n'.store.configs q = some c ∨
        ∃ c', n'.store.configs q = some c' ∧ ReliableConfig replicated c') :
    KnownOn q N replicated n' := by
  obtain ⟨c, hc, hreliable⟩ := h.config
  refine ⟨?_, hcoordinator ▸ h.leader⟩
  rcases hconfig c hc with hsame | hnew
  · exact ⟨c, hsame, hreliable⟩
  · exact hnew

lemma KnownOn.createQueue (h : KnownOn q N replicated n) {now : Time} {config : QueueConfig}
    (hconfig : config.name = q → ReliableConfig replicated config) :
    KnownOn q N replicated (n.createQueue now config).1 := by
  have hconfigs : ∀ c, n.store.configs q = some c →
      (n.store.createQueue now config).1.configs q = some c ∨
        ∃ c', (n.store.createQueue now config).1.configs q = some c' ∧
          ReliableConfig replicated c' := by
    intro c hc
    rcases configs_createQueue now config hc with hsame | ⟨hname, hnew⟩
    · exact .inl hsame
    · exact .inr ⟨config, hnew, hconfig hname⟩
  unfold PublishNode.createQueue
  generalize n.store.createQueue now config = created at hconfigs
  obtain ⟨store, err⟩ := created
  cases err with
  | none | some err => exact h.of_store rfl hconfigs

lemma KnownOn.perform (h : KnownOn q N replicated n) {store : StoreConfig}
    {event : PublishEvent ν} (hkeeps : event.Keeps q N replicated) :
    KnownOn q N replicated (event.perform store n) := by
  cases event with
  | createQueue now config => exact h.createQueue hkeeps
  | updateQueue config =>
    have hconfigs : ∀ c, n.store.configs q = some c →
        (n.store.updateQueue config).1.configs q = some c ∨
          ∃ c', (n.store.updateQueue config).1.configs q = some c' ∧
            ReliableConfig replicated c' := by
      intro c hc
      unfold updateQueue
      split
      · exact .inl hc
      · by_cases hname : config.name = q
        · exact .inr ⟨config, hname ▸ update_self .., hkeeps hname⟩
        · exact .inl ((update_of_ne (Ne.symm hname) _ _).trans hc)
    show KnownOn q N replicated (n.updateQueue config).1
    unfold PublishNode.updateQueue
    generalize n.store.updateQueue config = updated at hconfigs
    obtain ⟨store, err⟩ := updated
    cases err with
    | none | some err => exact h.of_store rfl hconfigs
  | deleteQueue queueName =>
    refine h.of_store rfl fun c hc => .inl ?_
    have hupdate : update n.store.configs queueName none q = some c :=
      (update_of_ne (Ne.symm hkeeps) _ _).trans hc
    show (n.store.deleteQueue queueName).1.configs q = some c
    simp only [deleteQueue]
    split
    · exact hupdate
    · exact hupdate
  | append now queueName e =>
    refine h.of_store rfl fun c hc => .inl ?_
    show (n.store.append store now queueName e).1.configs q = some c
    rw [configs_append, hc]
  | coordinator view => exact ⟨h.config, hkeeps⟩
  | consumers found => exact ⟨h.config, h.leader⟩

end

namespace PublishWorld

open Effects

variable {ν : Type} {q : String} {N : Set ν} {replicated : Prop}

/-! ### What every part of a publish keeps -/

/-- The records that were noted stood in the store they were appended to. -/
def Genuine (w : PublishWorld ν) : Prop :=
  ∀ r ∈ w.published, r.store.readRecord r.queueName r.offset = some (.envelope r.record)

/-- What every part of a publish keeps: the nodes know the queue as before, and what was appended
stays noted. -/
structure Step (q : String) (N : Set ν) (replicated : Prop) (w w' : PublishWorld ν) : Prop where
  steady : w.Steady q N replicated → w'.Steady q N replicated
  published : w.published ⊆ w'.published
  genuine : w.Genuine → w'.Genuine

instance : Std.Refl (Step q N replicated) :=
  ⟨fun _ => ⟨id, List.Subset.refl _, id⟩⟩

instance : IsTrans (PublishWorld ν) (Step q N replicated) :=
  ⟨fun _ _ _ h h' => ⟨h'.steady ∘ h.steady, List.Subset.trans h.published h'.published,
    h'.genuine ∘ h.genuine⟩⟩

variable [DecidableEq ν] {cfg : PublishConfig ν} {node : ν} {w : PublishWorld ν}

lemma frame_foldl_happen (events : List (ν × PublishEvent ν)) :
    (events.foldl (happen cfg) w).published = w.published ∧
      (events.foldl (happen cfg) w).script = w.script := by
  induction events generalizing w with
  | nil => exact ⟨rfl, rfl⟩
  | cons event events ih => exact ih

/-- One node is replaced by another that knows the queue. -/
lemma known_update (h : ∀ node ∈ N, KnownOn q N replicated (w.nodes node)) {n : PublishNode ν}
    (hn : node ∈ N → KnownOn q N replicated n) :
    ∀ other ∈ N, KnownOn q N replicated (update w.nodes node n other) := by
  intro other hother
  by_cases hsame : other = node
  · subst hsame
    rw [update_self]
    exact hn hother
  · rw [update_of_ne hsame]
    exact h other hother

lemma known_foldl_happen {events : List (ν × PublishEvent ν)}
    (h : ∀ node ∈ N, KnownOn q N replicated (w.nodes node))
    (hevents : ∀ event ∈ events, event.1 ∈ N → event.2.Keeps q N replicated) :
    ∀ node ∈ N, KnownOn q N replicated ((events.foldl (happen cfg) w).nodes node) := by
  induction events generalizing w with
  | nil => exact h
  | cons event events ih =>
    refine ih (known_update h fun hmem => ?_) fun e he => hevents e (List.mem_cons_of_mem event he)
    exact (h event.1 hmem).perform (hevents event List.mem_cons_self hmem)

/-- What is seen of a node is how it is then, and a look appends nothing. -/
lemma look_spec (cfg : PublishConfig ν) (node : ν) (w : PublishWorld ν) :
    (look cfg node w).1.2 = (look cfg node w).2.nodes node ∧
      (look cfg node w).2.published = w.published := by
  unfold look
  split
  · exact ⟨rfl, rfl⟩
  · exact ⟨rfl, (frame_foldl_happen _).1⟩

lemma respects_look : Respects (Step q N replicated) (look cfg node) := by
  intro w
  have hpublished := (look_spec cfg node w).2
  refine ⟨fun h => ?_, fun r hr => hpublished ▸ hr, fun h r hr => h r (hpublished ▸ hr)⟩
  unfold look
  split
  · exact h
  rename_i tick script hscript
  have hmem : ∀ t ∈ script, t ∈ w.script := fun t ht => hscript ▸ List.mem_cons_of_mem tick ht
  refine ⟨?_, fun t ht => ?_⟩
  · exact known_foldl_happen h.known fun event hevent =>
      h.script tick (hscript ▸ List.mem_cons_self) event hevent
  · rw [(frame_foldl_happen _).2] at ht
    exact h.script t (hmem t ht)

/-- A program that begins with a look needs to be considered only for the node as it is. -/
lemma respects_look_bind {α : Type} {g : Tick ν × PublishNode ν → Program ν α}
    (hg : ∀ tick w, Step q N replicated w (g (tick, w.nodes node) w).2) :
    Respects (Step q N replicated) (look cfg node >>= g) := by
  intro w
  refine IsTrans.trans w (look cfg node w).2 _ (respects_look w) ?_
  have hseen := (look_spec cfg node w).1
  have hstep := hg (look cfg node w).1.1 (look cfg node w).2
  rw [← hseen] at hstep
  exact hstep

/-- A node is replaced by another that knows the queue if it did. -/
lemma step_setNode {n : PublishNode ν}
    (hn : KnownOn q N replicated (w.nodes node) → KnownOn q N replicated n) :
    Step q N replicated w (setNode node n w).2 :=
  ⟨fun h => ⟨known_update h.known fun hmem => hn (h.known node hmem), h.script⟩,
    List.Subset.refl _, id⟩

/-- An append is noted. -/
lemma step_noteAppend {queueName : String} {record : Envelope} {store : Adapter} {offset : Nat}
    (hconfigs : ∀ c, (w.nodes node).store.configs q = some c → store.configs q = some c)
    (hread : store.readRecord queueName offset = some (.envelope record)) :
    Step q N replicated w (noteAppend node queueName record store offset w).2 := by
  refine ⟨fun h => ⟨known_update h.known fun hmem => ?_, h.script⟩, List.subset_cons_self _ _, ?_⟩
  · exact (h.known node hmem).of_store rfl fun c hc => .inl (hconfigs c hc)
  intro hgenuine r hr
  rcases List.mem_cons.1 hr with rfl | hr
  · exact hread
  · exact hgenuine r hr

lemma respects_getQueue (queueName : String) :
    Respects (Step q N replicated) (getQueue cfg node queueName) :=
  respects_look.bind fun _ => .pure _

lemma respects_resolveTargets (names : List String) :
    Respects (Step q N replicated) (resolveTargets cfg node names) :=
  (Respects.mapM fun name _ => (respects_getQueue name).bind fun _ => .pure _).bind fun _ => .pure _

lemma respects_findMatchingQueues (topic : String) :
    Respects (Step q N replicated) (findMatchingQueues cfg node topic) :=
  respects_look.bind fun _ => .pure _

lemma respects_resolveMatchingPublishTargets (topic : String) :
    Respects (Step q N replicated) (resolveMatchingPublishTargets cfg node topic) :=
  (respects_findMatchingQueues topic).bind respects_resolveTargets

/-- A queue that is not replicated can be created under any name. -/
lemma respects_createQueue {config : QueueConfig} (hlocal : config.replication.enabled = false) :
    Respects (Step q N replicated) (createQueue cfg node config) := by
  have hreliable : ReliableConfig replicated config := by
    constructor
    · intro henabled
      exact absurd (hlocal.symm.trans henabled) nofun
    · intro henabled
      exact absurd (hlocal.symm.trans henabled) nofun
  refine respects_look_bind fun tick w => ?_
  simp only
  split
  · exact Std.Refl.refl w
  · exact step_setNode fun h => h.createQueue fun _ => hreliable

lemma respects_getOrCreateQueue (queueName filter : String) :
    Respects (Step q N replicated) (getOrCreateQueue cfg node queueName filter) := by
  refine (respects_getQueue queueName).bind fun config => ?_
  split
  · exact .pure _
  refine (respects_createQueue rfl).bind fun err => ?_
  split
  · exact .pure _
  · refine (respects_getQueue queueName).bind fun config => ?_
    split <;> exact .pure _

lemma respects_resolveOrCreate (topic : String) (targets : List PublishTarget) :
    Respects (Step q N replicated) (resolveOrCreate cfg node topic targets) := by
  unfold resolveOrCreate
  split
  · refine (respects_getOrCreateQueue _ _).bind fun errs => ?_
    split
    · exact (respects_resolveMatchingPublishTargets _).bind fun _ => .pure _
    · exact .pure _
  · exact .pure _

lemma respects_resolvePublishTargets (cmd : PublishCommand) :
    Respects (Step q N replicated) (resolvePublishTargets cfg node cmd) := by
  unfold resolvePublishTargets
  split
  · exact (respects_resolveTargets _).bind fun _ => .pure _
  · exact (respects_resolveMatchingPublishTargets _).bind fun _ => respects_resolveOrCreate _ _

lemma respects_replicationWriteReadiness (queueName : String) :
    Respects (Step q N replicated) (replicationWriteReadiness cfg node queueName) := by
  refine respects_look.bind fun _ => ?_
  simp only
  repeat' split
  all_goals exact .pure _

lemma respects_applyAppend (queueName : String) (config : QueueConfig) (record : Envelope) :
    Respects (Step q N replicated) (applyAppend cfg node queueName config record) := by
  refine respects_look_bind fun tick w => ?_
  simp only
  split
  · exact Std.Refl.refl w
  have hconfigs : ∀ c, (w.nodes node).store.configs q = some c →
      (LogFSM.applyAppend cfg.fsm ⟨tick.now, .listOrder _⟩ (w.nodes node).store queueName
        (some record) "").1.configs q = some c := fun c => LogFSM.configs_applyAppend
  have hread := LogFSM.readRecord_applyAppend cfg.fsm ⟨tick.now, .listOrder _⟩ (w.nodes node).store
    queueName record
  generalize LogFSM.applyAppend cfg.fsm ⟨tick.now, .listOrder _⟩ (w.nodes node).store queueName
    (some record) "" = result at hconfigs hread
  obtain ⟨store, answer⟩ := result
  cases answer with
  | applied offset dup => exact step_noteAppend hconfigs (hread offset dup rfl)
  | refused err | stopped what err =>
    exact step_setNode fun h => h.of_store rfl fun c hc => .inl (hconfigs c hc)

lemma respects_appendLocalTarget (msg : Envelope) (target : PublishTarget) :
    Respects (Step q N replicated) (appendLocalTarget cfg node msg target) := by
  refine respects_look.bind fun created => ?_
  simp only
  split
  · refine (respects_replicationWriteReadiness _).bind fun ready => ?_
    split
    · exact .pure _
    refine respects_look.bind fun _ => ?_
    split
    · exact respects_applyAppend _ _ _
    · exact .pure _
  refine respects_look_bind fun tick w => ?_
  split
  · exact Std.Refl.refl w
  generalize happend : (w.nodes node).store.append cfg.fsm.store tick.now target.name
    (newQueuedRecord created.1.now msg target.name target.config) = result
  have hconfigs : result.1.configs = (w.nodes node).store.configs := by
    rw [← happend, configs_append]
  obtain ⟨store, answer⟩ := result
  cases answer with
  | ok offset =>
    exact step_noteAppend (fun c hc => hconfigs ▸ hc) (append_spec happend).1.self
  | error err => exact step_setNode fun h => h.of_store rfl fun c hc => .inl (hconfigs ▸ hc)

lemma respects_publishLocalToTargets (msg : Envelope) (targets : List PublishTarget) :
    Respects (Step q N replicated) (publishLocalToTargets cfg node msg targets) :=
  (Respects.mapM fun target _ => respects_appendLocalTarget msg target).bind fun _ => .pure _

lemma respects_routeTarget (target : PublishTarget) :
    Respects (Step q N replicated) (routeTarget cfg node target) := by
  unfold routeTarget
  split
  · exact .pure _
  refine (respects_replicationWriteReadiness _).bind fun ready => ?_
  split
  · exact .pure _
  refine respects_look.bind fun _ => ?_
  split
  · exact .pure _
  split
  · exact respects_look.bind fun _ => .pure _
  · refine respects_look.bind fun _ => ?_
    simp only
    split <;> exact .pure _
  · exact .pure _

variable {call : RemoteCall ν} {msg : Envelope}

/-! ### What a publish with calls on other nodes keeps -/

section

variable (hcall : ∀ node cmd, Respects (Step q N replicated) (call node cmd))

include hcall

lemma respects_forwardQueuePublish (remote : ν) (cmd : PublishCommand) :
    Respects (Step q N replicated) (forwardQueuePublish cfg call node remote cmd) := by
  refine respects_look.bind fun request => ?_
  simp only
  split
  · exact .pure _
  · exact (hcall remote cmd).bind fun _ => respects_look.bind fun _ => .pure _

lemma respects_forwardPublishToLeader (leader : ν) (names : List String) :
    Respects (Step q N replicated) (forwardPublishToLeader cfg call node msg leader names) := by
  refine respects_look.bind fun seen => ?_
  simp only
  split
  · exact .pure _
  split
  · exact .pure _
  · exact respects_forwardQueuePublish hcall leader _

lemma respects_forwardToLeaders (policy : FanoutPolicy) (forwards : List (ν × List String)) :
    Respects (Step q N replicated) (forwardToLeaders cfg call node msg policy forwards) := by
  induction forwards with
  | nil => exact .pure _
  | cons forward rest ih =>
    refine (respects_forwardPublishToLeader hcall _ _).bind fun errs => ?_
    split
    · exact .pure _
    · exact ih.bind fun _ => .pure _

lemma respects_writeToTargets (targets : List PublishTarget) (policy : FanoutPolicy) :
    Respects (Step q N replicated) (writeToTargets cfg call node msg targets policy) := by
  refine (Respects.mapM fun target _ => respects_routeTarget target).bind fun routes => ?_
  simp only
  split
  · exact .pure _
  refine (respects_publishLocalToTargets _ _).bind fun localErrs => ?_
  split
  · exact .pure _
  · exact (respects_forwardToLeaders hcall _ _).bind fun _ => .pure _

lemma respects_forwardToRemoteNodes :
    Respects (Step q N replicated) (forwardToRemoteNodes cfg call node msg) := by
  refine respects_look.bind fun seen => ?_
  simp only
  split
  · exact .pure _
  refine (Respects.mapM fun consumer _ => ?_).bind fun remotes => ?_
  · exact (respects_getQueue _).bind fun _ => .pure _
  · exact (Respects.mapM fun remote _ => respects_forwardQueuePublish hcall remote _).bind fun _ =>
      .pure _

lemma respects_publishToTargets (targets : List PublishTarget) (policy : FanoutPolicy) :
    Respects (Step q N replicated) (publishToTargets cfg call node msg targets policy) := by
  refine (respects_writeToTargets hcall _ _).bind fun errs => ?_
  split
  · exact (respects_forwardToRemoteNodes hcall).bind fun _ => .pure _
  · exact .pure _

lemma respects_publishResolved (resolved : List (PublishError ν) × List PublishTarget) :
    Respects (Step q N replicated) (publishResolved cfg call node msg resolved) := by
  unfold publishResolved
  split
  · exact .pure _
  split
  · exact .pure _
  · exact respects_publishToTargets hcall _ _

lemma respects_handlePublish (cmd : PublishCommand) :
    Respects (Step q N replicated) (handlePublish cfg call node cmd) := by
  unfold handlePublish
  split
  · exact .pure _
  split
  · exact (respects_resolvePublishTargets cmd).bind fun _ => respects_publishResolved hcall _
  refine (respects_resolvePublishTargets cmd).bind fun resolved => ?_
  simp only
  split
  · exact respects_publishLocalToTargets _ _
  · exact .pure _

end

lemma respects_publishCommand (hops : Nat) (node : ν) (cmd : PublishCommand) :
    Respects (Step q N replicated) (publishCommand cfg hops node cmd) := by
  induction hops generalizing node cmd with
  | zero => exact respects_handlePublish (fun _ _ => .pure _) cmd
  | succ hops ih => exact respects_handlePublish ih cmd

end PublishWorld

end FluxMQ
