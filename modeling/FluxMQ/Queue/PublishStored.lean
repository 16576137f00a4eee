import Mathlib.Data.List.ReduceOption
import FluxMQ.Queue.PublishSteady

/-!
# What a successful publish has stored

A publish without errors has appended a record to every queue it was meant for, as long as the nodes
it comes to have the queue: a node that is sent the names of its targets skips those it does not
have, and reports success if it has none. An append to a queue that is replicated asynchronously
succeeds before the record is stored.

The triples say of each part of a publish what it has appended if it reports no error.
`publish_stored` puts them together, and says also what happens to names that the receiving node does
not have.
-/

namespace FluxMQ

open Function List

namespace PublishWorld

open Effects

variable {ν : Type} [DecidableEq ν] {cfg : PublishConfig ν} {q : String} {N : Set ν}
  {replicated : Prop} {node : ν} {w : PublishWorld ν} {call : RemoteCall ν} {msg : Envelope}

/-! ### What a publish without errors has appended -/

/-- The publish has appended a record of the message to the queue. -/
def Held (q : String) (msg : Envelope) (w : PublishWorld ν) : Prop :=
  ∃ r ∈ w.published, r.queueName = q ∧ ∃ now config, r.record = newQueuedRecord now msg q config

omit [DecidableEq ν] in
lemma Held.step {w' : PublishWorld ν} (h : w.Held q msg) (hstep : Step q N replicated w w') :
    w'.Held q msg := by
  obtain ⟨r, hr, hfields⟩ := h
  exact ⟨r, hstep.published hr, hfields⟩

omit [DecidableEq ν] in
lemma triple_steady {α : Type} {f : Program ν α} (h : Respects (Step q N replicated) f) :
    Triple (Steady q N replicated) f fun _ w => w.Steady q N replicated :=
  fun w hw => (h w).steady hw

/-- A target of the queue has a configuration to rely on. -/
abbrev TargetsReliable (q : String) (replicated : Prop) (targets : List PublishTarget) : Prop :=
  ∀ t ∈ targets, t.name = q → ReliableConfig replicated t.config

/-- An append that is noted holds the message. -/
lemma triple_noteAppend {config : QueueConfig} {now : Time} {store : Adapter} {offset : Nat} :
    Triple (fun _ => True)
      (do noteAppend node q (newQueuedRecord now msg q config) store offset; pure [])
      fun (errs : List (PublishError ν)) w => errs = [] → w.Held q msg :=
  Triple.bind (Q := fun _ w => w.Held q msg)
    (fun _ _ => ⟨_, mem_cons_self, rfl, now, config, rfl⟩)
    fun _ => Triple.pure fun _ hw _ => hw

/-- An append through the raft group that waits for it. -/
lemma triple_applyAppend {config : QueueConfig} {now : Time}
    (hsync : config.replication.mode ≠ .async) :
    Triple (fun _ => True) (applyAppend cfg node q config (newQueuedRecord now msg q config))
      fun errs w => errs = [] → w.Held q msg := by
  have hunstored : (if (config.replication.mode == .async) = true then []
      else [PublishError.appendFailed (ν := ν) q]) ≠ [] := by
    rw [if_neg fun h => hsync (beq_iff_eq.1 h)]
    exact cons_ne_nil _ _
  refine Triple.bind (Q := fun _ _ => True) (fun _ _ => trivial) fun seen => ?_
  simp only
  split
  · exact Triple.pure fun _ _ h => absurd h hunstored
  split
  · exact triple_noteAppend
  · exact Triple.bind (Q := fun _ _ => True) (fun _ _ => trivial) fun _ =>
      Triple.pure fun _ _ h => absurd h hunstored

lemma triple_appendLocalTarget {target : PublishTarget} (hname : target.name = q)
    (hreliable : ReliableConfig replicated target.config) :
    Triple (Steady q N replicated) (appendLocalTarget cfg node msg target) fun errs w =>
      w.Steady q N replicated ∧ (errs = [] → w.Held q msg) := by
  intro w hw
  refine ⟨(respects_appendLocalTarget msg target w).steady hw, ?_⟩
  subst hname
  suffices hheld : Triple (fun _ => True) (appendLocalTarget cfg node msg target) fun errs w =>
      errs = [] → w.Held target.name msg from hheld w trivial
  refine Triple.bind (Q := fun _ _ => True) (fun _ _ => trivial) fun created => ?_
  simp only
  split
  · rename_i henabled
    refine Triple.bind (Q := fun _ _ => True) (fun _ _ => trivial) fun ready => ?_
    split
    · exact Triple.pure fun _ _ => nofun
    refine Triple.bind (Q := fun _ _ => True) (fun _ _ => trivial) fun seen => ?_
    split
    · exact triple_applyAppend (hreliable.synchronous henabled)
    · exact Triple.pure fun _ _ => nofun
  · refine Triple.bind (Q := fun _ _ => True) (fun _ _ => trivial) fun seen => ?_
    split
    · exact Triple.pure fun _ _ => nofun
    split
    · exact triple_noteAppend
    · exact Triple.bind (Q := fun _ _ => True) (fun _ _ => trivial) fun _ =>
        Triple.pure fun _ _ => nofun

lemma triple_publishLocalToTargets {targets : List PublishTarget}
    (hreliable : TargetsReliable q replicated targets) :
    Triple (Steady q N replicated) (publishLocalToTargets cfg node msg targets) fun errs w =>
      w.Steady q N replicated ∧ (errs = [] → (∃ t ∈ targets, t.name = q) → w.Held q msg) := by
  let Appended : PublishTarget → List (PublishError ν) → PublishWorld ν → Prop :=
    fun t errs w => t.name = q → errs = [] → w.Held q msg
  have hloop := Triple.mapM (R := Step q N replicated) (P := Steady q N replicated) (F := Appended)
    (l := targets) (g := appendLocalTarget cfg node msg)
    (fun t _ => respects_appendLocalTarget msg t)
    (fun _ _ _ _ hstep h hname herrs => (h hname herrs).step hstep) ?_
  · refine hloop.bind fun errs => Triple.pure ?_
    rintro w ⟨hw, hturns, -⟩
    refine ⟨hw, ?_⟩
    rintro hnone ⟨t, ht, hname⟩
    obtain ⟨errs', herrs', happended⟩ := hturns t ht
    exact happended hname (flatten_eq_nil_iff.1 hnone errs' herrs')
  · intro t ht
    by_cases hname : t.name = q
    · exact (triple_appendLocalTarget hname (hreliable t ht hname)).mono fun _ _ h =>
        ⟨h.1, fun _ => h.2⟩
    · exact (triple_steady (respects_appendLocalTarget msg t)).mono fun _ _ h =>
        ⟨h, fun hname' => absurd hname' hname⟩

section

variable (hnode : node ∈ N)

include hnode

lemma triple_look :
    Triple (Steady q N replicated) (look cfg node) fun seen w =>
      w.Steady q N replicated ∧ KnownOn q N replicated seen.2 := by
  intro w hw
  have hsteady : (look cfg node w).2.Steady q N replicated := (respects_look w).steady hw
  refine ⟨hsteady, ?_⟩
  rw [(look_spec cfg node w).1]
  exact hsteady.known node hnode

lemma triple_getQueue (name : String) :
    Triple (Steady q N replicated) (getQueue cfg node name) fun config w =>
      w.Steady q N replicated ∧
        (name = q → ∃ c, config = some c ∧ ReliableConfig replicated c) := by
  refine (triple_look hnode).bind fun seen => Triple.pure ?_
  rintro w ⟨hw, hknown⟩
  refine ⟨hw, ?_⟩
  rintro rfl
  exact hknown.config

variable (cfg) in
lemma triple_resolveTargets (names : List String) :
    Triple (Steady q N replicated) (resolveTargets cfg node names) fun targets w =>
      w.Steady q N replicated ∧ (q ∈ names → ∃ t ∈ targets, t.name = q) ∧
        TargetsReliable q replicated targets := by
  let Found : String → Option PublishTarget → Prop := fun name target =>
    (name = q → ∃ t, target = some t ∧ t.name = q) ∧
      ∀ t, target = some t → t.name = q → ReliableConfig replicated t.config
  refine Triple.bind (Triple.mapM_pure (F := Found) ?_) fun targets => Triple.pure ?_
  rotate_left
  · rintro w ⟨hw, hturns, hresults⟩
    refine ⟨hw, fun hmem => ?_, fun t ht => ?_⟩
    · obtain ⟨target, htarget, hfound, -⟩ := hturns q hmem
      obtain ⟨t, rfl, hname⟩ := hfound rfl
      exact ⟨t, reduceOption_mem_iff.2 htarget, hname⟩
    · obtain ⟨name, -, -, hreliable⟩ := hresults (some t) (reduceOption_mem_iff.1 ht)
      exact hreliable t rfl
  intro name _
  refine (triple_getQueue hnode name).bind fun config => Triple.pure ?_
  rintro w ⟨hw, hconfig⟩
  refine ⟨hw, fun hname => ?_, fun t ht htq => ?_⟩
  · obtain ⟨c, rfl, -⟩ := hconfig hname
    exact ⟨⟨name, c⟩, rfl, hname⟩
  obtain ⟨c, rfl, rfl⟩ := Option.map_eq_some_iff.1 ht
  obtain ⟨c', hc', hreliable⟩ := hconfig htq
  cases hc'
  exact hreliable

lemma triple_resolveMatchingPublishTargets (topic : String) :
    Triple (Steady q N replicated) (resolveMatchingPublishTargets cfg node topic) fun targets w =>
      w.Steady q N replicated ∧ TargetsReliable q replicated targets := by
  refine (triple_steady (respects_findMatchingQueues topic)).bind fun names => ?_
  exact (triple_resolveTargets cfg hnode names).mono fun _ _ h => ⟨h.1, h.2.2⟩

lemma triple_routeTarget (target : PublishTarget)
    (hreliable : target.name = q → ReliableConfig replicated target.config) :
    Triple (Steady q N replicated) (routeTarget cfg node target) fun route w =>
      w.Steady q N replicated ∧ route.1 = target ∧
        (target.name = q → ∀ l, route.2 = .leader l → l ∈ N) := by
  unfold routeTarget
  split
  · exact Triple.pure fun w hw => ⟨hw, rfl, nofun⟩
  rename_i henabled
  refine (triple_steady (respects_replicationWriteReadiness _)).bind fun ready => ?_
  split
  · exact Triple.pure fun w hw => ⟨hw, rfl, nofun⟩
  refine (triple_steady respects_look).bind fun seen => ?_
  split
  · exact Triple.pure fun w hw => ⟨hw, rfl, nofun⟩
  split
  · exact (triple_steady respects_look).bind fun _ => Triple.pure fun w hw => ⟨hw, rfl, nofun⟩
  · refine (triple_look hnode).bind fun seen => ?_
    simp only
    split
    · rename_i leader hleader
      refine Triple.pure ?_
      rintro w ⟨hw, hknown⟩
      refine ⟨hw, rfl, ?_⟩
      rintro rfl l ⟨⟩
      -- The queue is replicated, so that the leader is one of the nodes that have it.
      have henabled : target.config.replication.enabled = true := by simpa using henabled
      exact hknown.leader ((hreliable rfl).replicated henabled) _ hleader
    · exact Triple.pure fun w hw => ⟨hw.1, rfl, nofun⟩
  · exact Triple.pure fun w hw => ⟨hw, rfl, nofun⟩

end

/-! ### Routes -/

section

variable {routes : List (PublishTarget × TargetRoute ν)} {forwards : List (ν × List String)}
  {l leader : ν} {name : String}

omit [DecidableEq ν] in
lemma mem_localTargets {t : PublishTarget} : t ∈ localTargets routes ↔ (t, .here) ∈ routes := by
  simp only [localTargets, mem_filterMap]
  constructor
  · rintro ⟨⟨t', route⟩, hmem, heq⟩
    cases route with
    | here =>
      cases heq
      exact hmem
    | leader l | nowhere err => cases heq
  · intro hmem
    exact ⟨(t, .here), hmem, rfl⟩

omit [DecidableEq ν] in
lemma ne_nowhere_of_routeErrors (h : routeErrors routes = []) {r : PublishTarget × TargetRoute ν}
    (hr : r ∈ routes) (err : PublishError ν) : r.2 ≠ .nowhere err := by
  intro hroute
  obtain ⟨t, route⟩ := r
  cases hroute
  have hmem : err ∈ routeErrors routes := mem_filterMap.2 ⟨(t, .nowhere err), hr, rfl⟩
  rw [h] at hmem
  exact absurd hmem not_mem_nil

/-- The name of a queue is forwarded to a leader. -/
def IsForwarded (forwards : List (ν × List String)) (l : ν) (name : String) : Prop :=
  ∃ forward ∈ forwards, forward.1 = l ∧ name ∈ forward.2

omit [DecidableEq ν] in
lemma isForwarded_cons {forward : ν × List String} : IsForwarded (forward :: forwards) l name ↔
    (forward.1 = l ∧ name ∈ forward.2) ∨ IsForwarded forwards l name := by
  simp [IsForwarded]

lemma isForwarded_addForward {added : String} :
    IsForwarded (addForward leader added forwards) l name ↔
      (l = leader ∧ name = added) ∨ IsForwarded forwards l name := by
  induction forwards with
  | nil =>
    rw [addForward, isForwarded_cons, mem_singleton, eq_comm (a := leader)]
  | cons forward rest ih =>
    unfold addForward
    split
    · rw [isForwarded_cons, isForwarded_cons, mem_append, mem_singleton]
      grind
    · rw [isForwarded_cons, isForwarded_cons, ih]
      grind

lemma isForwarded_forwardTargets :
    IsForwarded (forwardTargets routes) l name ↔ ∃ t, (t, .leader l) ∈ routes ∧ t.name = name := by
  induction routes using reverseRecOn with
  | nil => simp [forwardTargets, IsForwarded]
  | append_singleton rest r ih =>
    obtain ⟨t, route⟩ := r
    rw [forwardTargets, foldl_append, ← forwardTargets]
    cases route with
    | here | nowhere err => simp [ih]
    | leader leader =>
      simp only [foldl_cons, foldl_nil, isForwarded_addForward, ih, mem_append,
        mem_singleton, Prod.mk.injEq, TargetRoute.leader.injEq]
      grind

end

/-! ### The whole publish -/

section

variable (hcall : ∀ node cmd, Respects (Step q N replicated) (call node cmd))
  (hremote : ∀ node ∈ N, ∀ names, q ∈ names →
    Triple (Steady q N replicated) (call node { envelope := msg, forcedTargets := names })
      fun errs w => errs = [] → w.Held q msg)

include hcall hremote

lemma triple_forwardQueuePublish {leader : ν} (hleader : leader ∈ N) {names : List String}
    (hnames : q ∈ names) :
    Triple (Steady q N replicated)
      (forwardQueuePublish cfg call node leader { envelope := msg, forcedTargets := names })
      fun errs w => w.Steady q N replicated ∧ (errs = [] → w.Held q msg) := by
  intro w hw
  refine ⟨(respects_forwardQueuePublish hcall leader _ w).steady hw, ?_⟩
  suffices hheld : Triple (Steady q N replicated)
      (forwardQueuePublish cfg call node leader { envelope := msg, forcedTargets := names })
      fun errs w => errs = [] → w.Held q msg from hheld w hw
  refine (triple_steady respects_look).bind fun request => ?_
  simp only
  split
  · exact Triple.pure fun _ _ => nofun
  refine (hremote leader hleader names hnames).bind fun errs => ?_
  refine Triple.bind (Q := fun _ w => errs = [] → w.Held q msg) (fun w hw hnone => ?_)
    fun answer => Triple.pure fun w hw hnone => ?_
  · have hstep : Step q N replicated w (look cfg node w).2 := respects_look w
    exact (hw hnone).step hstep
  -- The forward has succeeded only if the call has.
  split at hnone
  · exact absurd hnone (cons_ne_nil _ _)
  · rename_i hok
    have hboth : errs = [] ∧ answer.1.fails = false := by simpa using hok
    exact hw hboth.1

lemma triple_forwardPublishToLeader {leader : ν} (hleader : leader ∈ N) {names : List String}
    (hnames : q ∈ names) :
    Triple (Steady q N replicated) (forwardPublishToLeader cfg call node msg leader names)
      fun errs w => w.Steady q N replicated ∧ (errs = [] → w.Held q msg) := by
  refine (triple_steady respects_look).bind fun seen => ?_
  simp only
  split
  · exact Triple.pure fun _ hw => ⟨hw, nofun⟩
  split
  · exact Triple.pure fun _ hw => ⟨hw, nofun⟩
  · exact triple_forwardQueuePublish hcall hremote hleader hnames

lemma triple_forwardToLeaders {policy : FanoutPolicy} {forwards : List (ν × List String)}
    (hleaders : ∀ l, IsForwarded forwards l q → l ∈ N) :
    Triple (Steady q N replicated) (forwardToLeaders cfg call node msg policy forwards)
      fun errs w => errs = [] → (∃ l, IsForwarded forwards l q) → w.Held q msg := by
  induction forwards with
  | nil =>
    refine Triple.pure ?_
    rintro w - - ⟨l, _, hmem, -⟩
    exact absurd hmem not_mem_nil
  | cons forward rest ih =>
    obtain ⟨leader, names⟩ := forward
    have hrest := ih fun l hl => hleaders l (isForwarded_cons.2 (.inr hl))
    -- What the first forward has appended, if it is of the queue.
    have hfirst : Triple (Steady q N replicated)
        (forwardPublishToLeader cfg call node msg leader names) fun errs w =>
          w.Steady q N replicated ∧ (errs = [] → q ∈ names → w.Held q msg) := by
      by_cases hnames : q ∈ names
      · have hleader := hleaders leader (isForwarded_cons.2 (.inl ⟨rfl, hnames⟩))
        exact (triple_forwardPublishToLeader hcall hremote hleader hnames).mono fun _ _ h =>
          ⟨h.1, fun hnone _ => h.2 hnone⟩
      · exact (triple_steady (respects_forwardPublishToLeader hcall leader names)).mono fun _ _ h =>
          ⟨h, fun _ hmem => absurd hmem hnames⟩
    refine hfirst.bind fun errs => ?_
    split
    · rename_i hstop
      refine Triple.pure fun w _ hnone => ?_
      rw [hnone] at hstop
      simp at hstop
    intro w hw
    have hmore := hrest w hw.1
    have hstep : Step q N replicated w (forwardToLeaders cfg call node msg policy rest w).2 :=
      respects_forwardToLeaders hcall policy rest w
    intro hnone hforwarded
    obtain ⟨herrs, hmoreErrs⟩ := append_eq_nil_iff.1 hnone
    obtain ⟨l, hl⟩ := hforwarded
    rcases isForwarded_cons.1 hl with ⟨-, hnames⟩ | hl
    · exact (hw.2 herrs hnames).step hstep
    · exact hmore hmoreErrs ⟨l, hl⟩

section

variable (hnode : node ∈ N) {targets : List PublishTarget}
  (hreliable : TargetsReliable q replicated targets) (policy : FanoutPolicy)
include hnode hreliable policy

lemma triple_writeToTargets :
    Triple (Steady q N replicated) (writeToTargets cfg call node msg targets policy) fun errs w =>
      errs = [] → (∃ t ∈ targets, t.name = q) → w.Held q msg := by
  refine (Triple.mapM_pure fun t ht => triple_routeTarget hnode t (hreliable t ht)).bind
    fun routes => Triple.assuming ?_
  rintro ⟨hturns, hresults⟩
  -- The targets of the queue are written here or by a node that has the queue.
  have hlocal : TargetsReliable q replicated (localTargets routes) := by
    intro t ht hname
    obtain ⟨t', ht', rfl, -⟩ := hresults _ (mem_localTargets.1 ht)
    exact hreliable _ ht' hname
  have hleaders : ∀ l, IsForwarded (forwardTargets routes) l q → l ∈ N := by
    intro l hl
    obtain ⟨t, ht, hname⟩ := isForwarded_forwardTargets.1 hl
    obtain ⟨t', -, rfl, hl⟩ := hresults _ ht
    exact hl hname l rfl
  simp only
  split
  · rename_i hstop
    refine Triple.pure fun w _ hnone => ?_
    rw [hnone] at hstop
    simp at hstop
  refine (triple_publishLocalToTargets hlocal).bind fun localErrs => ?_
  split
  · rename_i hstop
    refine Triple.pure fun w _ hnone => ?_
    rw [(append_eq_nil_iff.1 hnone).2] at hstop
    simp at hstop
  rintro w ⟨hw, hheld⟩ hnone ⟨t, ht, hname⟩
  obtain ⟨hnone, hforwardErrs⟩ := append_eq_nil_iff.1 hnone
  obtain ⟨hrouteErrs, hlocalErrs⟩ := append_eq_nil_iff.1 hnone
  obtain ⟨⟨t', route⟩, hmem, rfl, -⟩ := hturns t ht
  cases route with
  | here =>
    have hstored := hheld hlocalErrs ⟨t', mem_localTargets.2 hmem, hname⟩
    exact hstored.step (respects_forwardToLeaders hcall policy _ w)
  | leader l =>
    exact triple_forwardToLeaders hcall hremote hleaders w hw hforwardErrs
      ⟨l, isForwarded_forwardTargets.2 ⟨t', hmem, hname⟩⟩
  | nowhere err => exact absurd rfl (ne_nowhere_of_routeErrors hrouteErrs hmem err)

lemma triple_publishToTargets :
    Triple (Steady q N replicated) (publishToTargets cfg call node msg targets policy) fun errs w =>
      errs = [] → (∃ t ∈ targets, t.name = q) → w.Held q msg := by
  refine (triple_writeToTargets hcall hremote hnode hreliable policy).bind fun errs => ?_
  split
  · refine Triple.bind (Q := fun _ w => errs = [] → (∃ t ∈ targets, t.name = q) → w.Held q msg) ?_
      fun _ => Triple.pure fun _ hw => hw
    intro w hw hnone hmem
    exact (hw hnone hmem).step (respects_forwardToRemoteNodes hcall w)
  · exact Triple.pure fun _ hw => hw

end

variable (cfg) in
lemma triple_publishResolved (hnode : node ∈ N)
    {resolved : List (PublishError ν) × List PublishTarget}
    (hreliable : TargetsReliable q replicated resolved.2) (hmem : ∃ t ∈ resolved.2, t.name = q) :
    Triple (Steady q N replicated) (publishResolved cfg call node msg resolved) fun errs w =>
      errs = [] → w.Held q msg := by
  unfold publishResolved
  split
  · rename_i herrs
    refine Triple.pure fun w _ hnone => ?_
    rw [hnone] at herrs
    simp at herrs
  split
  · rename_i hempty
    obtain ⟨t, ht, -⟩ := hmem
    rw [isEmpty_iff.1 hempty] at ht
    exact absurd ht not_mem_nil
  · exact (triple_publishToTargets hcall hremote hnode hreliable .strict).mono fun _ _ h hnone =>
      h hnone hmem

end

/-- The names that a publish starts from: those it was given, or those of the queues that match. -/
def targetNames (cfg : PublishConfig ν) (node : ν) (cmd : PublishCommand) :
    Program ν (List String) :=
  if cmd.forcedTargets ≠ [] then pure cmd.forcedTargets
  else findMatchingQueues cfg node cmd.envelope.topic

variable (cfg) in
/-- What was found stays, and what is created for a topic without targets can be relied on. -/
lemma triple_resolveOrCreate (hnode : node ∈ N) (topic : String) {targets : List PublishTarget}
    (hreliable : TargetsReliable q replicated targets) :
    Triple (Steady q N replicated) (resolveOrCreate cfg node topic targets) fun resolved w =>
      w.Steady q N replicated ∧ TargetsReliable q replicated resolved.2 ∧
        ∀ t ∈ targets, t ∈ resolved.2 := by
  unfold resolveOrCreate
  split
  · rename_i hempty
    rw [isEmpty_iff.1 hempty]
    refine (triple_steady (respects_getOrCreateQueue _ _)).bind fun errs => ?_
    split
    · exact (triple_resolveMatchingPublishTargets hnode _).bind fun created =>
        Triple.pure fun w hw => ⟨hw.1, hw.2, fun _ ht => absurd ht not_mem_nil⟩
    · exact Triple.pure fun w hw => ⟨hw, fun _ ht => absurd ht not_mem_nil,
        fun _ ht => absurd ht not_mem_nil⟩
  · exact Triple.pure fun w hw => ⟨hw, hreliable, fun _ ht => ht⟩

variable (cfg) in
/-- A queue among the names is among the targets. -/
lemma resolvePublishTargets_spec (hnode : node ∈ N) (cmd : PublishCommand)
    (hw : w.Steady q N replicated) :
    (resolvePublishTargets cfg node cmd w).2.Steady q N replicated ∧
      TargetsReliable q replicated (resolvePublishTargets cfg node cmd w).1.2 ∧
      (q ∈ (targetNames cfg node cmd w).1 →
        ∃ t ∈ (resolvePublishTargets cfg node cmd w).1.2, t.name = q) := by
  unfold resolvePublishTargets targetNames
  split
  · obtain ⟨hsteady, hfound, hreliable⟩ := triple_resolveTargets cfg hnode cmd.forcedTargets w hw
    exact ⟨hsteady, hreliable, hfound⟩
  have hw₁ : (findMatchingQueues cfg node cmd.envelope.topic w).2.Steady q N replicated :=
    (respects_findMatchingQueues cmd.envelope.topic w).steady hw
  obtain ⟨hw₂, hfound, hreliable⟩ := triple_resolveTargets cfg hnode
    (findMatchingQueues cfg node cmd.envelope.topic w).1 _ hw₁
  obtain ⟨hw₃, hreliable', hkept⟩ := triple_resolveOrCreate cfg hnode cmd.envelope.topic
    hreliable _ hw₂
  refine ⟨hw₃, hreliable', fun hmem => ?_⟩
  obtain ⟨t, ht, hname⟩ := hfound hmem
  exact ⟨t, hkept t ht, hname⟩

variable {cmd : PublishCommand}

lemma handlePublish_spec (hnode : node ∈ N)
    (hcall : ∀ node cmd, Respects (Step q N replicated) (call node cmd))
    (hremote : ∀ node ∈ N, ∀ names, q ∈ names →
      Triple (Steady q N replicated) (call node { envelope := cmd.envelope, forcedTargets := names })
        fun errs w => errs = [] → w.Held q cmd.envelope)
    (hmode : cmd.mode = .normal) (hw : w.Steady q N replicated)
    (hq : q ∈ (targetNames cfg node cmd w).1) :
    (handlePublish cfg call node cmd w).1 = [] →
      (handlePublish cfg call node cmd w).2.Held q cmd.envelope := by
  obtain ⟨hw', hreliable, hfound⟩ := resolvePublishTargets_spec cfg hnode cmd hw
  have hpublish := triple_publishResolved cfg hcall hremote hnode hreliable (hfound hq) _ hw'
  simp only [handlePublish, hmode, if_true]
  split
  · exact nofun
  · exact hpublish

lemma publishCommand_spec (hops : Nat) (hnode : node ∈ N)
    (hmode : cmd.mode = .normal) (hw : w.Steady q N replicated)
    (hq : q ∈ (targetNames cfg node cmd w).1) :
    (publishCommand cfg hops node cmd w).1 = [] →
      (publishCommand cfg hops node cmd w).2.Held q cmd.envelope := by
  induction hops generalizing node cmd w with
  | zero =>
    refine handlePublish_spec hnode (fun _ _ => .pure _) (fun remote _ names _ => ?_) hmode hw hq
    exact Triple.pure fun _ _ => nofun
  | succ hops ih =>
    refine handlePublish_spec hnode (respects_publishCommand hops) ?_ hmode hw hq
    intro remote hremote names hnames w' hw'
    -- A forward names its targets.
    have htargets : q ∈ (targetNames cfg remote
        { envelope := cmd.envelope, forcedTargets := names } w').1 := by
      rw [targetNames, if_pos (ne_nil_of_mem hnames)]
      exact hnames
    exact ih hremote rfl hw' htargets

/-! ### Forwards to a node without the queues -/

/-- The events that do not bring a queue to a node. -/
def Withholds (q : String) : PublishEvent ν → Prop
  | .createQueue _ config | .updateQueue config => config.name ≠ q
  | _ => True

/-- The node does not have the queue, and whatever happens it will not. -/
structure Unknown (node : ν) (q : String) (w : PublishWorld ν) : Prop where
  config : (w.nodes node).store.configs q = none
  script : ∀ tick ∈ w.script, ∀ event ∈ tick.events, event.1 = node → Withholds q event.2

omit [DecidableEq ν] in
lemma configs_perform_eq_none {n : PublishNode ν} {store : StoreConfig} {event : PublishEvent ν}
    (h : n.store.configs q = none) (hevent : Withholds q event) :
    (event.perform store n).store.configs q = none := by
  cases event with
  | createQueue now config =>
    have hupdate : update n.store.configs config.name (some config) q = none :=
      (update_of_ne (Ne.symm hevent) _ _).trans h
    have hcreate : (n.store.createQueue now config).1.configs q = none := by
      unfold Adapter.createQueue
      repeat' split
      all_goals first | exact h | exact hupdate
    show (n.createQueue now config).1.store.configs q = none
    unfold PublishNode.createQueue
    generalize n.store.createQueue now config = created at hcreate
    obtain ⟨store, err⟩ := created
    cases err <;> exact hcreate
  | updateQueue config =>
    have hupdate : update n.store.configs config.name (some config) q = none :=
      (update_of_ne (Ne.symm hevent) _ _).trans h
    show (n.updateQueue config).1.store.configs q = none
    unfold PublishNode.updateQueue Adapter.updateQueue
    split
    · rename_i heq
      split at heq
      · cases heq
      · cases heq
        exact hupdate
    · rename_i heq
      split at heq
      · cases heq
        exact h
      · cases heq
  | deleteQueue queueName =>
    have hupdate : update n.store.configs queueName none q = none := by
      by_cases hsame : q = queueName
      · rw [hsame, update_self]
      · rw [update_of_ne hsame, h]
    show (n.store.deleteQueue queueName).1.configs q = none
    simp only [Adapter.deleteQueue]
    split <;> exact hupdate
  | append now queueName e =>
    show (n.store.append store now queueName e).1.configs q = none
    rw [Adapter.configs_append, h]
  | coordinator view | consumers found => exact h

lemma configs_foldl_happen_eq_none {events : List (ν × PublishEvent ν)}
    (h : (w.nodes node).store.configs q = none)
    (hevents : ∀ event ∈ events, event.1 = node → Withholds q event.2) :
    ((events.foldl (happen cfg) w).nodes node).store.configs q = none := by
  induction events generalizing w with
  | nil => exact h
  | cons event events ih =>
    refine ih ?_ fun e he => hevents e (mem_cons_of_mem event he)
    show (update w.nodes event.1 _ node).store.configs q = none
    by_cases hsame : node = event.1
    · subst hsame
      rw [update_self]
      exact configs_perform_eq_none h (hevents event mem_cons_self rfl)
    · rw [update_of_ne hsame]
      exact h

lemma Unknown.look (h : w.Unknown node q) : (look cfg node w).2.Unknown node q := by
  unfold PublishWorld.look
  split
  · exact h
  rename_i tick script hscript
  refine ⟨?_, fun t ht => ?_⟩
  · exact configs_foldl_happen_eq_none h.config (h.script tick (hscript ▸ mem_cons_self))
  · rw [(frame_foldl_happen _).2] at ht
    exact h.script t (hscript ▸ mem_cons_of_mem tick ht)

variable (cfg) in
/-- Queues that the node does not have are skipped, and nothing is appended. -/
lemma triple_resolveTargets_unknown (names : List String) :
    Triple (fun w => (∀ name ∈ names, w.Unknown node name) ∧ w.published = [])
      (resolveTargets cfg node names) fun targets w => targets = [] ∧ w.published = [] := by
  refine Triple.bind (Triple.mapM_pure (F := fun _ target => target = none) ?_) fun targets =>
    Triple.pure ?_
  · rintro name hname w ⟨hunknown, hpublished⟩
    have hlook : (look cfg node w).2.Unknown node name := (hunknown name hname).look
    refine ⟨⟨fun other hother => (hunknown other hother).look, ?_⟩, ?_⟩
    · exact (look_spec cfg node w).2.trans hpublished
    · show Option.map _ ((look cfg node w).1.2.store.configs name) = none
      rw [(look_spec cfg node w).1, hlook.config, Option.map_none]
  · rintro w ⟨⟨-, hpublished⟩, -, hresults⟩
    refine ⟨eq_nil_iff_forall_not_mem.2 fun t ht => ?_, hpublished⟩
    obtain ⟨_, -, hnone⟩ := hresults (some t) (reduceOption_mem_iff.1 ht)
    cases hnone

lemma handlePublish_unknown (hmode : cmd.mode = .normal)
    (hvalid : cfg.validEnvelope cmd.envelope = true) (hforced : cmd.forcedTargets ≠ [])
    (hunknown : ∀ q ∈ cmd.forcedTargets, w.Unknown node q) (hpublished : w.published = []) :
    (handlePublish cfg call node cmd w).1 = [] ∧
      (handlePublish cfg call node cmd w).2.published = [] := by
  obtain ⟨htargets, hpublished'⟩ := triple_resolveTargets_unknown cfg cmd.forcedTargets w
    ⟨hunknown, hpublished⟩
  have hresolved : (resolvePublishTargets cfg node cmd w).1 = ([], []) ∧
      (resolvePublishTargets cfg node cmd w).2.published = [] := by
    rw [resolvePublishTargets, if_pos hforced]
    exact ⟨Prod.ext rfl htargets, hpublished'⟩
  simp only [handlePublish, hvalid, hmode, Bool.not_true, Bool.false_eq_true, if_false, if_true]
  show (publishResolved cfg call node cmd.envelope (resolvePublishTargets cfg node cmd w).1 _).1 = []
    ∧ (publishResolved cfg call node cmd.envelope (resolvePublishTargets cfg node cmd w).1 _).2.published
      = []
  rw [hresolved.1]
  exact ⟨rfl, hresolved.2⟩

/-! ### What a successful publish has stored -/

/-- The queue is there on the node and wherever the publish can be forwarded for it, and its appends
wait for the raft group. -/
def Reliable (node : ν) (q : String) (w : PublishWorld ν) : Prop :=
  ∃ N replicated, node ∈ N ∧ w.Steady q N replicated

/-- The publish has appended a record of the message to the queue, where it then stood. -/
def Stores (q : String) (msg : Envelope) (w : PublishWorld ν) : Prop :=
  ∃ r ∈ w.published, r.queueName = q ∧ (∃ now config, r.record = newQueuedRecord now msg q config) ∧
    r.store.readRecord q r.offset = some (.envelope r.record)

omit [DecidableEq ν] in
lemma Held.stores (h : w.Held q msg) (hgenuine : w.Genuine) : w.Stores q msg := by
  obtain ⟨r, hr, rfl, hrecord⟩ := h
  exact ⟨r, hr, rfl, hrecord, hgenuine r hr⟩

/-- A publish without errors has appended its message to every queue that it was meant for and that
can be relied on, whether it has found the queues by its topic or was sent their names. A publish that
was sent names of which the node has none reports no error and has appended nothing. -/
theorem publish_stored (cfg : PublishConfig ν) (hops : Nat) (node : ν) (cmd : PublishCommand)
    (w : PublishWorld ν) (hmode : cmd.mode = .normal) (hstart : w.published = []) :
    ((publishCommand cfg hops node cmd w).1 = [] →
      ∀ q ∈ (targetNames cfg node cmd w).1, w.Reliable node q →
        (publishCommand cfg hops node cmd w).2.Stores q cmd.envelope) ∧
    (cfg.validEnvelope cmd.envelope = true → cmd.forcedTargets ≠ [] →
      (∀ q ∈ cmd.forcedTargets, w.Unknown node q) →
        (publishCommand cfg hops node cmd w).1 = [] ∧
          (publishCommand cfg hops node cmd w).2.published = []) := by
  constructor
  · rintro hnone q hq ⟨N, replicated, hnode, hsteady⟩
    have hgenuine : w.Genuine := by
      intro r hr
      rw [hstart] at hr
      exact absurd hr not_mem_nil
    have hstep : Step q N replicated w (publishCommand cfg hops node cmd w).2 :=
      respects_publishCommand hops node cmd w
    exact (publishCommand_spec hops hnode hmode hsteady hq hnone).stores (hstep.genuine hgenuine)
  · intro hvalid hforced hunknown
    cases hops with
    | zero | succ hops => exact handlePublish_unknown hmode hvalid hforced hunknown hstart

/-! ### A forwarded publish -/

/-- A replicated queue. -/
def ordersConfig : QueueConfig :=
  { name := "orders", topics := ["orders/#"], replication := { enabled := true } }

/-- A cluster of two nodes that have the queue. The second leads it. -/
def ordersCluster : PublishWorld Bool where
  nodes follows :=
    let view : CoordinatorView Bool :=
      if follows then { installed := true, leaderId := fun _ => some false }
      else { installed := true, isLeader := fun _ => true }
    (PublishNode.createQueue { coordinator := view } 0 ordersConfig).1

/-- Nodes forward what they do not lead. -/
def forwardingConfig : PublishConfig Bool :=
  { writePolicy := fun _ => .forward }

/-- A message for the queue. -/
def ordersMessage : PublishCommand :=
  { envelope := { topic := "orders/1", payload := "new" } }

/-- A message that is forwarded is stored by the leader. -/
theorem publish_stored_forwarded :
    (targetNames forwardingConfig true ordersMessage ordersCluster).1 = ["orders"] ∧
      (publishCommand forwardingConfig 1 true ordersMessage ordersCluster).1.isEmpty ∧
      (publishCommand forwardingConfig 1 true ordersMessage ordersCluster).2.Stores "orders"
        ordersMessage.envelope := by
  have hnames : (targetNames forwardingConfig true ordersMessage ordersCluster).1 = ["orders"] := by
    decide +kernel
  have hnone : (publishCommand forwardingConfig 1 true ordersMessage ordersCluster).1.isEmpty := by
    decide +kernel
  refine ⟨hnames, hnone, ?_⟩
  refine (publish_stored forwardingConfig 1 true ordersMessage ordersCluster rfl rfl).1
    (isEmpty_iff.1 hnone) "orders" (hnames ▸ mem_singleton_self _) ?_
  refine ⟨Set.univ, True, Set.mem_univ _, fun node _ => ⟨⟨ordersConfig, ?_, ?_⟩, ?_⟩, ?_⟩
  · cases node <;> decide +kernel
  · exact ⟨fun _ => by decide, fun _ => trivial⟩
  · exact fun _ _ _ => Set.mem_univ _
  · exact nofun

/-- The queue is deleted from the leader while a message is on its way to it. The publish succeeds,
nothing is stored, and the node that has taken the message still has the queue. -/
theorem forwarded_publish_lost :
    let deleted : Tick Bool := { events := [(false, .deleteQueue "orders")] }
    let w := { ordersCluster with script := List.replicate 7 {} ++ [deleted] }
    let result := publishCommand forwardingConfig 1 true ordersMessage w
    (targetNames forwardingConfig true ordersMessage w).1 = ["orders"] ∧ result.1.isEmpty ∧
      result.2.published.isEmpty ∧
      (result.2.nodes true).store.configs "orders" = some ordersConfig := by
  decide +kernel

end PublishWorld

end FluxMQ
