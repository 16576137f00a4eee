import FluxMQ.Raft.CoordinatorSafety

/-!
# Every replicated queue has its raft group

A queue that is assigned to a group must be served by a running manager of that group. The coordinator
looks for the group first and assigns the queue later, and a release looks for queues first and stops
the manager later; neither holds a lock in between. If the two overlap, the queue ends up with a
manager that was stopped, or with none, and then `replicatorForQueue` answers with the manager of the
default group.

`RaftGroups.Calm` says that they do not overlap for one group. Then `RaftGroups.Serves` is an
invariant: what a queue is assigned to, or is about to be, is live and not being released.
-/

namespace FluxMQ

open Transition List Option

namespace CallState

/-- The group that the call has looked for and will assign its queue to. -/
def acquires : CallState → Option String
  | .acquiring _ _ .lookup => none
  | .acquiring config _ _ => some config.raftGroup
  | .assigning config _ => if config.replication.enabled then some config.raftGroup else none
  | _ => none

/-- The group and the manager that the call is about to make a member. -/
def registers : CallState → Option (String × Nat)
  | .acquiring config _ (.register manager) => some (config.raftGroup, manager)
  | _ => none

/-- The group that the call is about to assign its queue to. -/
def assigns : CallState → Option String
  | .assigning config _ => if config.replication.enabled then some config.raftGroup else none
  | _ => none

/-- The group that the call has found unused and is releasing. -/
def releases : CallState → Option String
  | .releasing _ .check => none
  | .releasing gid _ => some gid
  | _ => none

/-- The group that the provisioner has released for the call. -/
def drops : CallState → Option String
  | .releasing gid .dropMember => some gid
  | _ => none

section

variable {c : CallState} {g : String}

lemma acquires_of_registers {m : Nat} (h : c.registers = some (g, m)) : c.acquires = some g := by
  unfold registers at h
  split at h
  · obtain ⟨rfl, -⟩ := Prod.mk.inj (Option.some.inj h)
    simp only [acquires]
  · cases h

lemma acquires_of_assigns (h : c.assigns = some g) : c.acquires = some g := by
  unfold assigns at h
  split at h
  · exact h
  · cases h

lemma releases_of_stops {m : Nat} (h : c.stops = some (g, m)) : c.releases = some g := by
  unfold stops at h
  split at h
  · obtain ⟨rfl, -⟩ := Prod.mk.inj (Option.some.inj h)
    simp only [releases]
  · cases h

lemma releases_of_forgets {m : Nat} (h : c.forgets = some (g, m)) : c.releases = some g := by
  unfold forgets at h
  split at h
  · obtain ⟨rfl, -⟩ := Prod.mk.inj (Option.some.inj h)
    simp only [releases]
  · cases h

lemma releases_of_drops (h : c.drops = some g) : c.releases = some g := by
  unfold drops at h
  split at h
  · rw [← h]
    simp only [releases]
  · cases h

/-- A call that acquires a group releases none. -/
lemma releases_of_acquires (h : c.acquires = some g) : c.releases = none := by
  cases c with
  | acquiring config update stage | assigning config update | returned err | unmapping queueName => rfl
  | releasing gid stage => cases h

end

end CallState

namespace RaftGroups

open CallState (provisions holds stops forgets acquires registers assigns releases drops)

variable {setup : RaftSetup} {w w' : RaftGroups} {slot manager : Nat} {old new : CallState}
  {config : QueueConfig} {update : Bool} {gid addr : String}

/-- What every call that has one thing in hand has, too. -/
lemma inHand_mono {α β : Type} {f : CallState → Option α} {f' : CallState → Option β} {a : α}
    {b : β} {i : Nat} (hf : ∀ c, f c = some a → f' c = some b) (h : w.inHand f i = some a) :
    w.inHand f' i = some b := by
  obtain ⟨c, hc, ha⟩ := bind_eq_some_iff.1 h
  exact bind_eq_some_iff.2 ⟨c, hc, hf c ha⟩

/-- The group has a member that runs and is the one in the tables. -/
def Live (w : RaftGroups) (g : String) : Prop :=
  ∃ m, w.groupMembers g = some m ∧ w.provisioner.managers g = some m ∧ w.Runs m g

/-- A queue may be assigned to the group: it is live, and is not being released. -/
def Ready (setup : RaftSetup) (w : RaftGroups) (g : String) : Prop :=
  w.Live g ∧ normalizeGroupID g = g ∧
    (setup.isStatic g = false → ∀ i, w.inHand releases i ≠ some g)

/-- What holds as long as no group is released while it is wanted. A group that a queue is assigned
to, or is about to be, is live, and is not being released. -/
structure Serves (setup : RaftSetup) (w : RaftGroups) : Prop where
  crashed : w.crashed = false
  static : ∀ g, setup.isStatic g = true → w.Live g
  mapped : ∀ q g, w.queueGroups.lookup q = some g → w.Live g ∧ normalizeGroupID g = g ∧
    (setup.isStatic g = false → ∀ i, w.inHand releases i ≠ some g)
  apart : ∀ i j g, setup.isStatic g = false → w.inHand acquires i = some g →
    w.inHand releases j ≠ some g
  assigning : ∀ i g, w.inHand assigns i = some g → w.Live g
  registering : ∀ i g m, w.inHand registers i = some (g, m) →
    w.provisioner.managers g = some m ∧ w.Runs m g
  members : ∀ g m, w.groupMembers g = some m →
    w.provisioner.managers g = some m ∨ ∃ i, w.inHand drops i = some g
  inTables : ∀ g m, w.provisioner.managers g = some m →
    w.Runs m g ∨ ∃ i, w.inHand forgets i = some (g, m)
  oneRelease : ∀ i j g, setup.isStatic g = false → w.inHand releases i = some g →
    w.inHand releases j = some g → i = j
  stopping : ∀ i g m, w.inHand stops i = some (g, m) →
    setup.isStatic g = false ∧ w.provisioner.managers g = some m ∧ w.Runs m g
  forgetting : ∀ i g m, w.inHand forgets i = some (g, m) →
    setup.isStatic g = false ∧ w.provisioner.managers g = some m
  dropping : ∀ i g, w.inHand drops i = some g →
    setup.isStatic g = false ∧ w.provisioner.managers g = none

attribute [grind →] Serves.mapped Serves.assigning Serves.registering Serves.members Serves.inTables
  Serves.oneRelease Serves.stopping Serves.forgetting Serves.dropping

/-- Stopping a manager that runs is no panic. -/
lemma crashed_stopManager (h : w.started[manager]? = some (RaftManager.mk gid addr true)) :
    (w.stopManager manager).crashed = w.crashed := by
  simp only [stopManager, h, if_true]

/-- The same managers run. -/
lemma runs_iff (hstarted : w'.started = w.started) (m : Nat) (g : String) : w'.Runs m g ↔ w.Runs m g := by
  simp only [Runs, hstarted]

namespace Serves

lemma not_some {α : Type} {x : Option α} {a : α} {P : Prop} (hx : x = none) (ha : x = some a) : P := by
  rw [hx] at ha
  cases ha

section

variable (h : w.Serves setup)
include h

/-- Nobody else wants or releases a group that is being released. -/
lemma unwanted (hstatic : setup.isStatic gid = false)
    (hreleases : w.inHand releases slot = some gid) :
    (∀ i, w.inHand acquires i ≠ some gid) ∧ (∀ i, w.inHand assigns i ≠ some gid) ∧
      (∀ i m, w.inHand registers i ≠ some (gid, m)) ∧
      (∀ i m, w.inHand stops i = some (gid, m) → i = slot) ∧
      ∀ i m, w.inHand forgets i = some (gid, m) → i = slot := by
  have hacquires : ∀ i, w.inHand acquires i ≠ some gid := fun i hi => h.apart i slot gid hstatic hi hreleases
  have hsole (i : Nat) (hi : w.inHand releases i = some gid) : i = slot := h.oneRelease i slot gid hstatic hi hreleases
  exact ⟨hacquires, fun i hi => hacquires i (inHand_mono (fun _ => CallState.acquires_of_assigns) hi),
    fun i m hi => hacquires i (inHand_mono (fun _ => CallState.acquires_of_registers) hi),
    fun i m hi => hsole i (inHand_mono (fun _ => CallState.releases_of_stops) hi),
    fun i m hi => hsole i (inHand_mono (fun _ => CallState.releases_of_forgets) hi)⟩

/-- The static groups are not released. -/
lemma live_static (hstatic : setup.isStatic gid = false)
    (hlive : ∀ g, g ≠ gid → w.Live g → w'.Live g) (g : String) (hg : setup.isStatic g = true) :
    w'.Live g := by
  refine hlive g ?_ (h.static g hg)
  rintro rfl
  rw [hg] at hstatic
  cases hstatic

/-- A call goes on and the tables that queues rely on stay as they are. -/
lemma move (hmoved : Moved w w' slot old new) (hcrashed : w'.crashed = w.crashed)
    (hqueues : w'.queueGroups = w.queueGroups) (hmembers : w'.groupMembers = w.groupMembers)
    (hmanagers : w'.provisioner.managers = w.provisioner.managers)
    (hruns : ∀ m g, w.provisioner.managers g = some m → w.Runs m g → w'.Runs m g)
    (hold : old.forgets = none ∧ old.drops = none) (hnew : new.forgets = none ∧ new.drops = none)
    (hacquires : ∀ g, new.acquires = some g → old.acquires = some g ∨
      (setup.isStatic g = false → ∀ j, w.inHand releases j ≠ some g))
    (hassigns : ∀ g, new.assigns = some g → w.Live g)
    (hregisters : ∀ g m, new.registers = some (g, m) →
      w.provisioner.managers g = some m ∧ w.Runs m g)
    (hreleases : ∀ g, new.releases = some g → old.releases = some g ∨
      (setup.isStatic g = false → (∀ j, w.inHand releases j ≠ some g) ∧
        (∀ j, w.inHand acquires j ≠ some g) ∧ ∀ q, w.queueGroups.lookup q ≠ some g))
    (hstops : ∀ g m, new.stops = some (g, m) →
      setup.isStatic g = false ∧ w.provisioner.managers g = some m ∧ w.Runs m g) :
    w'.Serves setup := by
  have hlive : ∀ g, w.Live g → w'.Live g := by
    rintro g ⟨m, hm, hm', hr⟩
    exact ⟨m, hmembers ▸ hm, hmanagers ▸ hm', hruns m g hm' hr⟩
  have hexclusive : ∀ g, new.acquires = some g → new.releases = none :=
    fun g hg => CallState.releases_of_acquires hg
  have hacquiresSlot := hmoved.inHand_slot acquires
  have hreleasesSlot := hmoved.inHand_slot releases
  have hforgetsSlot := (hmoved.inHand_slot forgets).trans hold.1
  have hdropsSlot := (hmoved.inHand_slot drops).trans hold.2
  have hapart := h.apart
  constructor
  case static => exact fun g hg => hlive g (h.static g hg)
  all_goals
    simp only [hmoved.inHand, hcrashed, hqueues, hmembers, hmanagers, hnew]
  case crashed => exact h.crashed
  all_goals grind

/-- A call has changed the assignment of a queue. -/
lemma reassign (hmoved : Moved w w' slot old new) (hcrashed : w'.crashed = w.crashed)
    (hmembers : w'.groupMembers = w.groupMembers) (hprov : w'.provisioner = w.provisioner)
    (hstarted : w'.started = w.started) (hold : old.forgets = none ∧ old.drops = none)
    (hnew : new.forgets = none ∧ new.drops = none ∧ new.acquires = none ∧ new.assigns = none ∧
      new.registers = none ∧ new.releases = none ∧ new.stops = none)
    (hqueues : ∀ q g, w'.queueGroups.lookup q = some g → w.queueGroups.lookup q = some g ∨
      w.Ready setup g) : w'.Serves setup := by
  unfold Ready at hqueues
  have hlive : ∀ g, w'.Live g ↔ w.Live g := by
    intro g
    simp only [Live, Runs, hmembers, hprov, hstarted]
  have hruns := runs_iff hstarted
  have hforgetsSlot := (hmoved.inHand_slot forgets).trans hold.1
  have hdropsSlot := (hmoved.inHand_slot drops).trans hold.2
  have hapart := h.apart
  constructor <;> simp only [hmoved.inHand, hcrashed, hmembers, hprov, hnew, hlive, hruns]
  case crashed => exact h.crashed
  case static => exact h.static
  all_goals grind

section

variable (hcrashed : w'.crashed = w.crashed) (hqueues : w'.queueGroups = w.queueGroups)
include hcrashed hqueues

/-- A manager that nothing relies on is stopped. -/
lemma stop {bindAddr : Option String}
    (hmoved : Moved w w' slot (.releasing gid (.stop manager bindAddr))
      (.releasing gid (.forget manager bindAddr))) (hmembers : w'.groupMembers = w.groupMembers)
    (hprov : w'.provisioner = w.provisioner)
    (hstarted : ∀ i : Nat, i ≠ manager → w'.started[i]? = w.started[i]?) : w'.Serves setup := by
  have hstops := hmoved.inHand_slot stops
  have hreleases := hmoved.inHand_slot releases
  have hforgetsSlot := hmoved.inHand_slot forgets
  have hdropsSlot := hmoved.inHand_slot drops
  simp only [stops, releases, forgets, drops] at hstops hreleases hforgetsSlot hdropsSlot
  obtain ⟨hstatic, hmanager, a, hrun⟩ := h.stopping slot gid manager hstops
  -- Managers of other groups go on.
  have hruns : ∀ m g, g ≠ gid → w.Runs m g → w'.Runs m g := by
    rintro m g hg ⟨b, hm⟩
    refine ⟨b, ?_⟩
    rw [hstarted m, hm]
    rintro rfl
    exact hg (RaftManager.mk.inj (Option.some.inj (hm.symm.trans hrun))).1
  have hlive : ∀ g, g ≠ gid → w.Live g → w'.Live g := by
    rintro g hg ⟨m, hm, hm', hr⟩
    exact ⟨m, hmembers ▸ hm, hprov ▸ hm', hruns m g hg hr⟩
  obtain ⟨hacquires, hassigns, hregisters, hothers, -⟩ := h.unwanted hstatic hreleases
  have hstatics := h.live_static hstatic hlive
  have hapart := h.apart
  constructor
  case static => exact hstatics
  all_goals
    simp only [hmoved.inHand, acquires, assigns, registers, releases, drops, stops, forgets, hcrashed,
      hqueues, hmembers, hprov]
  case crashed => exact h.crashed
  all_goals grind

variable (hstarted : w'.started = w.started)
include hstarted

/-- The manager that was started is put into the tables. -/
lemma handOver (hsole : w.Sole)
    (hmoved : Moved w w' slot (.acquiring config update (.finish (some manager) addr))
      (.acquiring config update (.register manager))) (hmembers : w'.groupMembers = w.groupMembers)
    (hmanagers : w'.provisioner.managers =
      Function.update w.provisioner.managers config.raftGroup (some manager)) : w'.Serves setup := by
  -- The group was in no table, so no queue has relied on it.
  have hprovisions := hmoved.inHand_slot provisions
  have hholds := hmoved.inHand_slot holds
  have hacquires := hmoved.inHand_slot acquires
  have hforgetsSlot := hmoved.inHand_slot forgets
  have hdropsSlot := hmoved.inHand_slot drops
  simp only [provisions, holds, acquires] at hprovisions hholds hacquires
  simp only [forgets, drops] at hforgetsSlot hdropsSlot
  have hnone := hsole.idle _ (hsole.provisioning slot _ _ hprovisions).1
  have hrun : w.Runs manager config.raftGroup := ⟨addr, hsole.holding slot _ _ hholds⟩
  have hruns := runs_iff hstarted
  have hlive : ∀ g, w.Live g → w'.Live g := by
    rintro g ⟨m, hm, hm', hr⟩
    refine ⟨m, hmembers ▸ hm, ?_, (hruns m g).2 hr⟩
    rw [hmanagers, Function.update_apply]
    grind
  have hapart := h.apart
  have hdrops : ∀ i, w.inHand drops i ≠ some config.raftGroup := fun i hi =>
    hapart slot i _ (h.dropping i _ hi).1 hacquires
      (inHand_mono (fun _ => CallState.releases_of_drops) hi)
  constructor
  case static => exact fun g hg => hlive g (h.static g hg)
  all_goals
    simp only [hmoved.inHand, acquires, assigns, registers, releases, drops, stops, forgets, hcrashed,
      hqueues, hmembers, hmanagers, Function.update_apply, hruns]
  case crashed => exact h.crashed
  all_goals grind

/-- The manager becomes a member. -/
lemma enroll (hmoved : Moved w w' slot (.acquiring config update (.register manager))
      (.assigning config update))
    (hmembers : w'.groupMembers = Function.update w.groupMembers config.raftGroup (some manager))
    (hnone : w.groupMembers config.raftGroup = none) (hprov : w'.provisioner = w.provisioner) :
    w'.Serves setup := by
  have hregisters := hmoved.inHand_slot registers
  have hacquires := hmoved.inHand_slot acquires
  have hforgetsSlot := hmoved.inHand_slot forgets
  have hdropsSlot := hmoved.inHand_slot drops
  simp only [registers, acquires, forgets, drops] at hregisters hacquires hforgetsSlot hdropsSlot
  have hruns := runs_iff hstarted
  have hapart := h.apart
  obtain ⟨hmanager, hrun⟩ := h.registering slot _ _ hregisters
  have hlive : ∀ g, w.Live g → w'.Live g := by
    rintro g ⟨m, hm, hm', hr⟩
    refine ⟨m, ?_, hprov ▸ hm', (hruns m g).2 hr⟩
    rw [hmembers, Function.update_apply]
    grind
  have hnow : w'.Live config.raftGroup := by
    refine ⟨manager, ?_, hprov ▸ hmanager, (hruns manager _).2 hrun⟩
    rw [hmembers, Function.update_self]
  constructor
  case static => exact fun g hg => hlive g (h.static g hg)
  all_goals
    simp only [hmoved.inHand, acquires, assigns, registers, releases, drops, stops, forgets, hcrashed,
      hqueues, hmembers, hprov, Function.update_apply, hruns]
  case crashed => exact h.crashed
  all_goals grind

/-- The stopped manager is taken out of the tables. -/
lemma forget {bindAddr : Option String}
    (hmoved : Moved w w' slot (.releasing gid (.forget manager bindAddr))
      (.releasing gid .dropMember)) (hmembers : w'.groupMembers = w.groupMembers)
    (hmanagers : w'.provisioner.managers = Function.update w.provisioner.managers gid none) :
    w'.Serves setup := by
  have hforgets := hmoved.inHand_slot forgets
  have hreleases := hmoved.inHand_slot releases
  have hdropsSlot := hmoved.inHand_slot drops
  simp only [forgets, releases, drops] at hforgets hreleases hdropsSlot
  have hruns := runs_iff hstarted
  have hlive : ∀ g, g ≠ gid → w.Live g → w'.Live g := by
    rintro g hg ⟨m, hm, hm', hr⟩
    refine ⟨m, hmembers ▸ hm, ?_, (hruns m g).2 hr⟩
    rw [hmanagers, Function.update_of_ne hg, hm']
  obtain ⟨hstatic, hmanager⟩ := h.forgetting slot gid manager hforgets
  obtain ⟨hacquires, hassigns, hregisters, hstops, hothers⟩ := h.unwanted hstatic hreleases
  have hstatics := h.live_static hstatic hlive
  have hapart := h.apart
  constructor
  case static => exact hstatics
  all_goals
    simp only [hmoved.inHand, acquires, assigns, registers, releases, drops, stops, forgets, hcrashed,
      hqueues, hmembers, hmanagers, hruns, Function.update_apply]
  case crashed => exact h.crashed
  all_goals grind

/-- The released group loses its member. -/
lemma drop (hmoved : Moved w w' slot (.releasing gid .dropMember) (.returned none))
    (hmembers : w'.groupMembers = Function.update w.groupMembers gid none)
    (hprov : w'.provisioner = w.provisioner) : w'.Serves setup := by
  have hdrops := hmoved.inHand_slot drops
  have hreleases := hmoved.inHand_slot releases
  have hforgetsSlot := hmoved.inHand_slot forgets
  simp only [drops, releases, forgets] at hdrops hreleases hforgetsSlot
  have hruns := runs_iff hstarted
  have hlive : ∀ g, g ≠ gid → w.Live g → w'.Live g := by
    rintro g hg ⟨m, hm, hm', hr⟩
    refine ⟨m, ?_, hprov ▸ hm', (hruns m g).2 hr⟩
    rw [hmembers, Function.update_of_ne hg, hm]
  obtain ⟨hstatic, hmanager⟩ := h.dropping slot gid hdrops
  obtain ⟨-, hassigns, -⟩ := h.unwanted hstatic hreleases
  have hstatics := h.live_static hstatic hlive
  have hapart := h.apart
  constructor
  case static => exact hstatics
  all_goals
    simp only [hmoved.inHand, acquires, assigns, registers, releases, drops, stops, forgets, hcrashed,
      hqueues, hmembers, hprov, hruns, Function.update_apply]
  case crashed => exact h.crashed
  all_goals grind

end

/-- A group that is not being released and has a member is live. -/
lemma live_of_member {g : String} {m : Nat} (hm : w.groupMembers g = some m)
    (hfree : setup.isStatic g = false → ∀ i, w.inHand releases i ≠ some g) : w.Live g := by
  cases hstatic : setup.isStatic g with
  | true => exact h.static g hstatic
  | false =>
    have hfree := hfree hstatic
    rcases h.members g m hm with hm' | ⟨i, hi⟩
    · rcases h.inTables g m hm' with hr | ⟨i, hi⟩
      · exact ⟨m, hm, hm', hr⟩
      · exact absurd (inHand_mono (fun _ => CallState.releases_of_forgets) hi) (hfree i)
    · exact absurd (inHand_mono (fun _ => CallState.releases_of_drops) hi) (hfree i)

/-- A manager in the tables runs if its group is not being released. -/
lemma runs_of_manager {g : String} {m : Nat} (hm : w.provisioner.managers g = some m)
    (hfree : setup.isStatic g = false → ∀ i, w.inHand releases i ≠ some g) : w.Runs m g := by
  rcases h.inTables g m hm with hr | ⟨i, hi⟩
  · exact hr
  · have hstatic := (h.forgetting i g m hi).1
    exact absurd (inHand_mono (fun _ => CallState.releases_of_forgets) hi) (hfree hstatic i)

lemma ensureGroup (hsole : w.Sole) {stage : AcquireStage}
    (hslot : w.calls[slot]? = some (.acquiring config update stage)) (ok : Bool)
    (hcalm : stage = .lookup → setup.isStatic config.raftGroup = false →
      ∀ i, w.inHand releases i ≠ some config.raftGroup) :
    (w.ensureGroup setup slot ok config update stage).Serves setup := by
  have hfree : setup.isStatic config.raftGroup = false →
      ∀ i, w.inHand releases i ≠ some config.raftGroup := by
    intro hstatic i
    by_cases hlookup : stage = .lookup
    · exact hcalm hlookup hstatic i
    · refine h.apart slot i _ hstatic ?_
      rw [inHand_of_slot hslot]
      cases stage <;> first | rfl | exact absurd rfl hlookup
  have hmove : ∀ {w' : RaftGroups} {new : CallState},
      Moved w w' slot (.acquiring config update stage) new → w'.crashed = w.crashed →
      w'.queueGroups = w.queueGroups → w'.groupMembers = w.groupMembers →
      w'.provisioner.managers = w.provisioner.managers →
      (∀ m g, w.provisioner.managers g = some m → w.Runs m g → w'.Runs m g) →
      new.forgets = none ∧ new.drops = none ∧ new.releases = none ∧ new.stops = none →
      ((∀ g, new.acquires = some g → g = config.raftGroup) ∧
        (∀ g, new.assigns = some g → w.Live g) ∧
        ∀ g m, new.registers = some (g, m) → w.provisioner.managers g = some m ∧ w.Runs m g) →
      w'.Serves setup := by
    rintro w' new hmoved hcrashed hqueues hmembers hmanagers hruns
      ⟨hforgets, hdrops, hreleases, hstops⟩ ⟨hacquires, hassigns, hregisters⟩
    exact h.move hmoved hcrashed hqueues hmembers hmanagers hruns ⟨rfl, rfl⟩ ⟨hforgets, hdrops⟩
      (fun g hg => .inr (hacquires g hg ▸ hfree)) hassigns hregisters (fun _ => not_some hreleases)
      fun _ _ => not_some hstops
  have hsame : ∀ m g, w.provisioner.managers g = some m → w.Runs m g → w.Runs m g :=
    fun _ _ _ hr => hr
  have hassigned : ∀ g, CallState.assigns (.assigning config update) = some g →
      g = config.raftGroup := by
    intro g hg
    simp only [assigns] at hg
    split at hg
    · exact (Option.some.inj hg).symm
    · cases hg
  -- Most of the stages that follow only acquire the group, and a call that has returned does nothing.
  have honly : ∀ {new : CallState}, new.acquires = some config.raftGroup ∨ new.acquires = none →
      new.assigns = none → new.registers = none →
      (∀ g, new.acquires = some g → g = config.raftGroup) ∧ (∀ g, new.assigns = some g → w.Live g) ∧
      ∀ g m, new.registers = some (g, m) → w.provisioner.managers g = some m ∧ w.Runs m g := by
    intro new hacquires hassigns hregisters
    rw [hassigns, hregisters]
    refine ⟨fun g hg => ?_, fun g hg => ?_, fun g m hm => ?_⟩
    · rcases hacquires with heq | heq <;> rw [heq] at hg <;> cases hg
      rfl
    · cases hg
    · cases hm
  cases stage with
  | lookup =>
    simp only [RaftGroups.ensureGroup]
    split
    · rename_i m hm
      refine hmove (moved_goto hslot rfl) rfl rfl rfl rfl hsame ⟨rfl, rfl, rfl, rfl⟩
        ⟨hassigned, fun g hg => ?_, fun g m hm => ?_⟩
      · exact hassigned g hg ▸ h.live_of_member hm hfree
      · cases hm
    split
    · exact hmove (moved_goto hslot rfl) rfl rfl rfl rfl hsame ⟨rfl, rfl, rfl, rfl⟩
        (honly (.inl rfl) rfl rfl)
    · exact hmove (moved_goto hslot rfl) rfl rfl rfl rfl hsame ⟨rfl, rfl, rfl, rfl⟩
        (honly (.inr rfl) rfl rfl)
  | provision =>
    simp only [RaftGroups.ensureGroup, Provisioner.getOrCreateGroup]
    have hreturned : ∀ err, (w.goto slot (.returned err)).Serves setup := fun err =>
      hmove (moved_goto hslot rfl) rfl rfl rfl rfl hsame ⟨rfl, rfl, rfl, rfl⟩
        (honly (.inr rfl) rfl rfl)
    cases hmanager : w.provisioner.managers config.raftGroup with
    | some m =>
      refine hmove (moved_goto hslot rfl) rfl rfl rfl rfl hsame ⟨rfl, rfl, rfl, rfl⟩
        ⟨fun g hg => (Option.some.inj hg).symm, fun g hg => ?_, fun g m' hm' => ?_⟩
      · cases hg
      · obtain ⟨rfl, rfl⟩ := Prod.mk.inj (Option.some.inj hm')
        exact ⟨hmanager, h.runs_of_manager hmanager hfree⟩
    | none =>
      cases hinflight : w.provisioner.inflight config.raftGroup with
      | true => exact h
      | false =>
        cases setup.raft.runtimeAddr (fun addr => (w.provisioner.usedBind addr).isSome)
            config.raftGroup with
        | error err => exact hreturned _
        | ok addr =>
          simp only
          cases (w.provisioner.usedBind addr).filter
              (fun existing => existing != config.raftGroup) with
          | some existing => exact hreturned _
          | none =>
            exact hmove (moved_goto hslot rfl) rfl rfl rfl rfl hsame ⟨rfl, rfl, rfl, rfl⟩
              (honly (.inl rfl) rfl rfl)
  | start addr =>
    simp only [RaftGroups.ensureGroup]
    split
    · refine hmove (moved_goto hslot rfl) rfl rfl rfl rfl (fun m g _ hr => ?_)
        ⟨rfl, rfl, rfl, rfl⟩ (honly (.inl rfl) rfl rfl)
      obtain ⟨a, ha⟩ := hr
      refine ⟨a, ?_⟩
      have hlt := (List.getElem?_eq_some_iff.1 ha).1
      exact (List.getElem?_append_left hlt).trans ha
    · exact hmove (moved_goto hslot rfl) rfl rfl rfl rfl hsame ⟨rfl, rfl, rfl, rfl⟩
        (honly (.inl rfl) rfl rfl)
  | waitLeader m addr =>
    simp only [RaftGroups.ensureGroup]
    split
    · exact hmove (moved_goto hslot rfl) rfl rfl rfl rfl hsame ⟨rfl, rfl, rfl, rfl⟩
        (honly (.inl rfl) rfl rfl)
    have hheld : w.inHand holds slot = some (m, ⟨config.raftGroup, addr, true⟩) :=
      inHand_of_slot hslot holds
    have hm := hsole.holding slot m _ hheld
    have hnone := hsole.idle _ (hsole.provisioning slot _ _ (inHand_provisions hheld)).1
    obtain ⟨hcalls, hprov, hqueues, hmembers⟩ := frame_stopManager (w := w) m
    refine hmove (moved_goto hslot hcalls) (crashed_stopManager hm) hqueues hmembers
      (congrArg Provisioner.managers hprov) (fun m' g hm' hr => ?_)
      ⟨rfl, rfl, rfl, rfl⟩ (honly (.inl rfl) rfl rfl)
    -- The manager that is given up is in no table.
    obtain ⟨a, ha⟩ := hr
    refine ⟨a, (started_stopManager hm m').trans ?_⟩
    rw [if_neg, ha]
    rintro rfl
    obtain ⟨b, r, hb⟩ := hsole.managers g m' hm'
    obtain ⟨rfl, -⟩ := RaftManager.mk.inj (Option.some.inj (hb.symm.trans hm))
    exact absurd (hm'.symm.trans hnone) (Option.some_ne_none m')
  | finish m addr =>
    cases m with
    | some m => exact h.handOver rfl rfl rfl hsole (moved_goto hslot rfl) rfl rfl
    | none =>
      exact hmove (moved_goto hslot rfl) rfl rfl rfl rfl hsame ⟨rfl, rfl, rfl, rfl⟩
        (honly (.inr rfl) rfl rfl)
  | register m =>
    simp only [RaftGroups.ensureGroup]
    split
    · rename_i m' hm
      refine hmove (moved_goto hslot rfl) rfl rfl rfl rfl hsame ⟨rfl, rfl, rfl, rfl⟩
        ⟨hassigned, fun g hg => ?_, fun g m hm => ?_⟩
      · exact hassigned g hg ▸ h.live_of_member hm hfree
      · cases hm
    · rename_i hnone
      exact h.enroll rfl rfl rfl (moved_goto hslot rfl) rfl hnone rfl

/-- A group is in use if a queue is assigned to it. -/
lemma mapped_of_inUse (huse : w.inUse gid = true) : ∃ q, w.queueGroups.lookup q = some gid := by
  obtain ⟨⟨q, g⟩, hmem, hg⟩ := any_eq_true.1 huse
  have hlookup : w.queueGroups.lookup q = some g := AList.mem_lookup_iff.2 hmem
  refine ⟨q, ?_⟩
  rw [hlookup, ← (h.mapped q g hlookup).2.1, beq_iff_eq.1 hg]

lemma not_mapped_of_unused (hunused : w.inUse gid = false) (q : String) :
    w.queueGroups.lookup q ≠ some gid := by
  intro hlookup
  have huse : w.inUse gid = true := by
    refine any_eq_true.2 ⟨⟨q, gid⟩, AList.mem_lookup_iff.1 hlookup, ?_⟩
    exact beq_iff_eq.2 (h.mapped q gid hlookup).2.1
  rw [huse] at hunused
  cases hunused

lemma maybeReleaseGroup {stage : ReleaseStage}
    (hslot : w.calls[slot]? = some (.releasing gid stage))
    (hcalm : stage = .check → setup.isStatic gid = false → w.inUse gid = false →
      ∀ i, w.inHand releases i ≠ some gid ∧ w.inHand acquires i ≠ some gid) :
    (w.maybeReleaseGroup setup slot gid stage).Serves setup := by
  have hreturned : CallState.forgets (.releasing gid stage) = none →
      CallState.drops (.releasing gid stage) = none → (w.goto slot (.returned none)).Serves setup :=
    fun hforgets hdrops =>
      h.move (moved_goto hslot rfl) rfl rfl rfl rfl (fun _ _ _ hr => hr) ⟨hforgets, hdrops⟩
        ⟨rfl, rfl⟩ (fun _ => not_some rfl) (fun _ => not_some rfl) (fun _ _ => not_some rfl)
        (fun _ => not_some rfl) fun _ _ => not_some rfl
  cases stage with
  | check =>
    simp only [RaftGroups.maybeReleaseGroup]
    split
    · exact hreturned rfl rfl
    rename_i hpass
    have hunused : w.inUse gid = false := by
      cases huse : w.inUse gid with
      | true => exact absurd (.inr (.inr (.inl huse))) hpass
      | false => rfl
    refine h.move (moved_goto hslot rfl) rfl rfl rfl rfl (fun _ _ _ hr => hr) ⟨rfl, rfl⟩
      ⟨rfl, rfl⟩ (fun _ => not_some rfl) (fun _ => not_some rfl) (fun _ _ => not_some rfl)
      (fun g hg => .inr ?_) fun _ _ => not_some rfl
    obtain rfl := Option.some.inj hg
    intro hstatic
    have hwanted := hcalm rfl hstatic hunused
    exact ⟨fun j => (hwanted j).1, fun j => (hwanted j).2, h.not_mapped_of_unused hunused⟩
  | tryRelease =>
    simp only [RaftGroups.maybeReleaseGroup]
    split
    · exact hreturned rfl rfl
    rename_i hstatic
    split
    · exact hreturned rfl rfl
    rename_i m hm
    refine h.move (moved_goto hslot rfl) rfl rfl rfl rfl (fun _ _ _ hr => hr) ⟨rfl, rfl⟩
      ⟨rfl, rfl⟩ (fun _ => not_some rfl) (fun _ => not_some rfl) (fun _ _ => not_some rfl)
      (fun g hg => .inl hg) fun g m' hstops => ?_
    obtain ⟨rfl, rfl⟩ := Prod.mk.inj (Option.some.inj hstops)
    have hstatic : setup.isStatic gid = false := Bool.eq_false_iff.2 hstatic
    refine ⟨hstatic, hm, ?_⟩
    -- Only this call could have stopped it.
    rcases h.inTables gid m hm with hr | ⟨i, hi⟩
    · exact hr
    have hi' := inHand_mono (fun _ => CallState.releases_of_forgets) hi
    have hslot' := h.oneRelease i slot gid hstatic hi' (inHand_of_slot hslot releases)
    rw [hslot', inHand_of_slot hslot] at hi
    cases hi
  | stop m bindAddr =>
    obtain ⟨-, -, a, hm⟩ := h.stopping slot gid m (inHand_of_slot hslot stops)
    obtain ⟨hcalls, hprov, hqueues, hmembers⟩ := frame_stopManager (w := w) m
    refine h.stop (crashed_stopManager hm) hqueues (moved_goto hslot hcalls) hmembers hprov ?_
    intro i hi
    exact (started_stopManager hm i).trans (if_neg hi)
  | forget m bindAddr =>
    have hm := (h.forgetting slot gid m (inHand_of_slot hslot forgets)).2
    simp only [RaftGroups.maybeReleaseGroup, hm, if_true]
    exact h.forget rfl rfl rfl (moved_goto hslot rfl) rfl rfl
  | dropMember =>
    have hstatic := (h.dropping slot gid (inHand_of_slot hslot drops)).1
    have hunused : w.inUse gid = false := by
      rw [Bool.eq_false_iff]
      intro huse
      obtain ⟨q, hq⟩ := h.mapped_of_inUse huse
      exact (h.mapped q gid hq).2.2 hstatic slot (inHand_of_slot hslot releases)
    simp only [RaftGroups.maybeReleaseGroup, hunused, Bool.false_eq_true, if_false]
    exact h.drop rfl rfl rfl (moved_goto hslot rfl) rfl rfl

lemma assign (hslot : w.calls[slot]? = some (.assigning config update)) :
    (w.assign slot config update).Serves setup := by
  -- The group of a replicated queue was made ready for it.
  have hqueues : ∀ q g, (w.ensureQueueAssignment config).lookup q = some g →
      w.queueGroups.lookup q = some g ∨ w.Ready setup g := by
    intro q g hq
    unfold ensureQueueAssignment at hq
    split at hq
    · rename_i henabled
      by_cases hname : q = config.name
      · rw [hname, AList.lookup_insert] at hq
        obtain rfl := Option.some.inj hq
        have hassigns : w.inHand assigns slot = some config.raftGroup := by
          rw [inHand_of_slot hslot, assigns, if_pos henabled]
        refine .inr ⟨h.assigning slot _ hassigns, ?_, fun hstatic i => ?_⟩
        · unfold QueueConfig.raftGroup
          exact normalizeGroupID_normalizeGroupID _
        · exact h.apart slot i _ hstatic
            (inHand_mono (fun _ => CallState.acquires_of_assigns) hassigns)
      · rw [AList.lookup_insert_ne hname] at hq
        exact .inl hq
    · exact .inl (AList.of_lookup_erase hq)
  simp only [RaftGroups.assign]
  split
  · split
    all_goals
      exact h.reassign (moved_goto hslot rfl) rfl rfl rfl rfl ⟨rfl, rfl⟩
        ⟨rfl, rfl, rfl, rfl, rfl, rfl, rfl⟩ hqueues
  · exact h.reassign (moved_goto hslot rfl) rfl rfl rfl rfl ⟨rfl, rfl⟩
      ⟨rfl, rfl, rfl, rfl, rfl, rfl, rfl⟩ hqueues

lemma unmap {queueName : String} (hslot : w.calls[slot]? = some (.unmapping queueName)) :
    (w.unmap slot queueName).Serves setup := by
  have hqueues : ∀ q g, (w.queueGroups.erase queueName).lookup q = some g →
      w.queueGroups.lookup q = some g ∨ w.Ready setup g :=
    fun q g hq => .inl (AList.of_lookup_erase hq)
  simp only [RaftGroups.unmap]
  split
  all_goals
    exact h.reassign (moved_goto hslot rfl) rfl rfl rfl rfl ⟨rfl, rfl⟩
      ⟨rfl, rfl, rfl, rfl, rfl, rfl, rfl⟩ hqueues

lemma call (call : QueueCall) : (w.step setup (.call call)).Serves setup := by
  have hbegin : call.begin.acquires = none ∧ call.begin.assigns = none ∧
      call.begin.registers = none ∧ call.begin.releases = none ∧ call.begin.stops = none ∧
      call.begin.forgets = none ∧ call.begin.drops = none := by
    rcases begin_cases call with ⟨config, update, -, h⟩ | ⟨config, update, he, h⟩ | ⟨queueName, h⟩
    · rw [h]
      exact ⟨rfl, rfl, rfl, rfl, rfl, rfl, rfl⟩
    · rw [h]
      refine ⟨?_, ?_, rfl, rfl, rfl, rfl, rfl⟩
      · rw [acquires, he]
        rfl
      · rw [assigns, he]
        rfl
    · rw [h]
      exact ⟨rfl, rfl, rfl, rfl, rfl, rfl, rfl⟩
  obtain ⟨hacquires, hassigns, hregisters, hreleases, hstops, hforgets, hdrops⟩ := hbegin
  obtain ⟨crashed, static, mapped, apart, assigning, registering, members, inTables, oneRelease,
    stopping, forgetting, dropping⟩ := h
  refine ⟨crashed, static, ?mapped, ?apart, ?assigning, ?registering, ?members, ?inTables,
      ?oneRelease, ?stopping, ?forgetting, ?dropping⟩ <;>
    simp only [inHand_call hacquires, inHand_call hassigns, inHand_call hregisters,
      inHand_call hreleases, inHand_call hstops, inHand_call hforgets, inHand_call hdrops]
  case mapped => exact mapped
  case apart => exact apart
  case assigning => exact assigning
  case registering => exact registering
  case members => exact members
  case inTables => exact inTables
  case oneRelease => exact oneRelease
  case stopping => exact stopping
  case forgetting => exact forgetting
  case dropping => exact dropping

/-- A queue that is assigned to a group is served by it. -/
lemma served : w.Served := by
  intro q g hq
  obtain ⟨⟨m, hm, -, hr⟩, hnormal, -⟩ := h.mapped q g hq
  have hne : g ≠ "" := by
    rintro rfl
    exact absurd hnormal (by decide)
  have hreplicator : w.replicatorForQueue q = m := by
    simp only [replicatorForQueue, mem_def.1 hq, if_neg hne, hm, getD_some]
  rw [hreplicator]
  exact hr

end

end Serves

end RaftGroups

namespace CallState

/-- The group whose members the call is about to look at. -/
def looksUp : CallState → Option String
  | .acquiring config _ .lookup => some config.raftGroup
  | _ => none

/-- The group that the call is about to check for queues. -/
def checks : CallState → Option String
  | .releasing gid .check => some gid
  | _ => none

end CallState

namespace RaftGroups

/-- No call looks for a group while another releases it, and no release finds a group unused while
another call has looked for it or is releasing it. Groups that were started with the broker are not
released, so nothing is asked for them. -/
def Calm (setup : RaftSetup) (w : RaftGroups) : CoordinatorAction → Prop
  | .call _ => True
  | .advance slot _ =>
    (∀ gid ∈ w.inHand CallState.looksUp slot, setup.isStatic gid = false →
      ∀ call ∈ w.calls, call.releases ≠ some gid) ∧
    ∀ gid ∈ w.inHand CallState.checks slot, setup.isStatic gid = false → w.inUse gid = false →
      ∀ call ∈ w.calls, call.releases ≠ some gid ∧ call.acquires ≠ some gid

instance (setup : RaftSetup) (w : RaftGroups) (action : CoordinatorAction) :
    Decidable (Calm setup w action) :=
  match action with
  | .call _ => isTrue trivial
  | .advance slot _ => inferInstanceAs (Decidable ((∀ gid ∈ w.inHand CallState.looksUp slot, _) ∧ _))

variable {setup : RaftSetup} {w : RaftGroups}

open CallState (acquires releases)

/-- What no call has in hand is in no hand. -/
lemma inHand_ne {α : Type} {f : CallState → Option α} {a : α}
    (h : ∀ call ∈ w.calls, f call ≠ some a) (i : Nat) : w.inHand f i ≠ some a := by
  intro hi
  obtain ⟨c, hc, ha⟩ := bind_eq_some_iff.1 hi
  exact h c (mem_of_getElem? hc) ha

lemma Serves.step (h : w.Serves setup) (hsole : w.Sole) {action : CoordinatorAction}
    (hcalm : w.Calm setup action) : (w.step setup action).Serves setup := by
  cases action with
  | call call => exact h.call call
  | advance slot ok =>
    simp only [RaftGroups.step]
    split
    · rename_i state hcrashed hslot
      cases state with
      | returned err => exact h
      | acquiring config update stage =>
        refine h.ensureGroup hsole hslot ok ?_
        rintro rfl hstatic
        exact inHand_ne (hcalm.1 _ (inHand_of_slot hslot CallState.looksUp) hstatic)
      | assigning config update => exact h.assign hslot
      | unmapping queueName => exact h.unmap hslot
      | releasing gid stage =>
        refine h.maybeReleaseGroup hslot ?_
        rintro rfl hstatic hunused i
        have hwanted := hcalm.2 _ (inHand_of_slot hslot CallState.checks) hstatic hunused
        exact ⟨inHand_ne (fun c hc => (hwanted c hc).1) i, inHand_ne (fun c hc => (hwanted c hc).2) i⟩
    · exact h

lemma serves_boot (setup : RaftSetup) : (boot setup).Serves setup := by
  -- Every manager in the tables is a member and runs.
  have hlive : ∀ g m, (boot setup).provisioner.managers g = some m → (boot setup).Runs m g := by
    intro g m hm
    obtain ⟨a, ha⟩ := managers_boot.1 hm
    exact ⟨a, started_boot.2 ⟨ha, rfl⟩⟩
  exact {
    crashed := rfl
    static := fun g hg => by
      have hmem : g ∈ setup.runtimes.map Prod.fst := contains_iff_mem.1 hg
      obtain ⟨m, hm⟩ : ∃ m, (setup.runtimes.map Prod.fst).idxOf? g = some m := by
        rw [← isSome_iff_exists, isSome_iff_ne_none, ne_eq, idxOf?_eq_none_iff, not_not]
        exact hmem
      exact ⟨m, hm, hm, hlive g m hm⟩
    mapped := fun q g hq => absurd hq (by rw [show (boot setup).queueGroups = ∅ from rfl]; simp)
    apart := fun i j g _ hi => absurd hi (inHand_boot _ i _)
    assigning := fun i g hi => absurd hi (inHand_boot _ i _)
    registering := fun i g m hi => absurd hi (inHand_boot _ i _)
    members := fun g m hm => .inl hm
    inTables := fun g m hm => .inl (hlive g m hm)
    oneRelease := fun i j g _ hi => absurd hi (inHand_boot _ i _)
    stopping := fun i g m hi => absurd hi (inHand_boot _ i _)
    forgetting := fun i g m hi => absurd hi (inHand_boot _ i _)
    dropping := fun i g hi => absurd hi (inHand_boot _ i _) }

/-- However the calls interleave, no two running managers share a group or an address. If no group is
released while it is wanted, every replicated queue is served by a running manager of its own group,
at every moment. -/
theorem queues_served (setup : RaftSetup) (actions : List CoordinatorAction) :
    (Transition.run (step setup) (boot setup) actions).Exclusive ∧
      (Transition.Along (step setup) (Calm setup) (boot setup) actions →
        (Transition.run (step setup) (boot setup) actions).crashed = false ∧
          (Transition.run (step setup) (boot setup) actions).Served) := by
  constructor
  · have hsole : (run (step setup) (boot setup) actions).Sole :=
      invariant_run (P := fun _ _ => True) (fun _ action h _ => h.step action)
        (Sole.boot setup) (along_of_forall fun _ _ _ => trivial)
    exact hsole.exclusive
  intro hcalm
  have hserves : (run (step setup) (boot setup) actions).Sole ∧
      (run (step setup) (boot setup) actions).Serves setup :=
    invariant_run (I := fun w => w.Sole ∧ w.Serves setup)
      (fun _ action h hc => ⟨h.1.step action, h.2.step h.1 hc⟩)
      ⟨Sole.boot setup, serves_boot setup⟩ hcalm
  exact ⟨hserves.2.crashed, hserves.2.served⟩

/-- No manager leaks: one that runs is in the tables or with the call that started it, and its
address is reserved. -/
theorem running_known (setup : RaftSetup) (actions : List CoordinatorAction) :
    let w := run (step setup) (boot setup) actions
    {r : Nat × RaftManager | w.started[r.1]? = some r.2 ∧ r.2.running} ⊆
      {r | w.provisioner.usedBind r.2.bindAddr = some r.2.group ∧
        (w.provisioner.managers r.2.group = some r.1 ∨ ∃ i, w.inHand CallState.holds i = some r)} := by
  rintro w ⟨m, g, a, _⟩ ⟨hm, rfl⟩
  have h : w.Sole := invariant_run (P := fun _ _ => True) (fun _ action h _ => h.step action)
    (Sole.boot setup) (along_of_forall fun _ _ _ => trivial)
  exact ⟨h.bound m g a hm, h.running m g a hm⟩

/-! ### A group that is released and wanted again -/

/-- A broker with the default group alone; other groups bind a port of their own. -/
def defaultSetup : RaftSetup where
  raft :=
    { bindAddr := "10.0.0.1:7000"
      peers := [("b", "10.0.0.2:7000")]
      addPortOffset := fun addr offset => some (addr ++ "+" ++ toString offset) }
  runtimes := [(defaultGroupID, "10.0.0.1:7000")]
  default_mem := by simp
  groups_nodup := by simp
  addrs_nodup := by simp

/-- A queue of the group `billing`. -/
def billingQueue (name : String) : QueueConfig :=
  { name, topics := [name], replication := { enabled := true, group := "billing" } }

/-- Steps of one call, all of which succeed. -/
def steps (slot count : Nat) : List CoordinatorAction :=
  List.replicate count (.advance slot true)

/-- The only queue of the group is deleted, and another one created after that. -/
def oneByOne : List CoordinatorAction :=
  .call (.ensureQueue (billingQueue "invoices")) :: steps 0 7 ++
    .call (.deleteQueue "invoices") :: steps 1 6 ++
    .call (.ensureQueue (billingQueue "refunds")) :: steps 2 7

/-- The second queue has looked for its group when the first is deleted; it is assigned to the group
after `releaseSteps` steps of the deletion. -/
def overlapping (releaseSteps : Nat) : List CoordinatorAction :=
  .call (.ensureQueue (billingQueue "invoices")) :: steps 0 7 ++
    .call (.ensureQueue (billingQueue "refunds")) :: steps 1 1 ++
    .call (.deleteQueue "invoices") :: steps 2 releaseSteps ++ steps 1 1 ++ steps 2 (6 - releaseSteps)

/-- One after the other, the calls leave the second queue with a manager of its group. -/
theorem queues_served_oneByOne :
    (Transition.run (step defaultSetup) (boot defaultSetup) oneByOne).queueGroups.lookup "refunds" =
        some "billing" ∧
      (Transition.run (step defaultSetup) (boot defaultSetup) oneByOne).Served :=
  ⟨by decide +kernel, ((queues_served defaultSetup oneByOne).2 (by decide +kernel)).2⟩

/-- A queue whose replicator is of another group or does not run. -/
lemma not_served {queueName gid : String} (hq : w.queueGroups.lookup queueName = some gid)
    (hreplicator : (w.started[w.replicatorForQueue queueName]?).map
      (fun m => (m.group, m.running)) ≠ some (gid, true)) : ¬ w.Served := by
  intro hserved
  obtain ⟨addr, hm⟩ := hserved queueName gid hq
  rw [hm] at hreplicator
  exact hreplicator rfl

/-- If the release ends before the assignment, the queue is left with the manager of the default
group. If the assignment comes before its end, the queue keeps a manager that was stopped. -/
theorem assigned_queue_unserved :
    ((Transition.run (step defaultSetup) (boot defaultSetup) (overlapping 6)).AllReturned ∧
      ¬ (Transition.run (step defaultSetup) (boot defaultSetup) (overlapping 6)).Served) ∧
    (Transition.run (step defaultSetup) (boot defaultSetup) (overlapping 5)).AllReturned ∧
      ¬ (Transition.run (step defaultSetup) (boot defaultSetup) (overlapping 5)).Served := by
  have hqueue : ∀ n ∈ [5, 6], (run (step defaultSetup) (boot defaultSetup)
      (overlapping n)).queueGroups.lookup "refunds" = some "billing" := by
    decide +kernel
  refine ⟨⟨by decide +kernel, not_served (hqueue 6 (by decide)) ?_⟩, by decide +kernel,
    not_served (hqueue 5 (by decide)) ?_⟩
  · decide +kernel
  · decide +kernel

end RaftGroups

end FluxMQ
