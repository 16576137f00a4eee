import FluxMQ.Raft.Coordinator

/-!
# One manager for a group and for an address

However the calls of the coordinator interleave, no two managers of one group run at the same time,
and no two that bind one address. The provisioner sees to that with three tables that it reads and
writes under its lock: a group is started by one call at a time, the address stays reserved as long as
the manager runs, and a manager leaves the table only after it was stopped.

What the tables say depends on what the calls have in hand between two of their steps, so the
invariant `RaftGroups.Sole` is about both. It reads of a call only what `RaftGroups.inHand` shows.
-/

namespace FluxMQ

open List Function Option

/-! ### What a call has in hand -/

namespace CallState

/-- The group that the call is starting, and the address it has reserved for it. -/
def provisions : CallState → Option (String × String)
  | .acquiring config _ (.start addr) | .acquiring config _ (.waitLeader _ addr)
  | .acquiring config _ (.finish _ addr) => some (config.raftGroup, addr)
  | _ => none

/-- The running manager that the call has started and not yet handed over. -/
def holds : CallState → Option (Nat × RaftManager)
  | .acquiring config _ (.waitLeader manager addr)
  | .acquiring config _ (.finish (some manager) addr) =>
    some (manager, ⟨config.raftGroup, addr, true⟩)
  | _ => none

/-- The group and the manager that the call is about to stop. -/
def stops : CallState → Option (String × Nat)
  | .releasing gid (.stop manager _) => some (gid, manager)
  | _ => none

/-- The group and the manager that the call has stopped and is about to take out of the tables. -/
def forgets : CallState → Option (String × Nat)
  | .releasing gid (.forget manager _) => some (gid, manager)
  | _ => none

end CallState

namespace RaftGroups

open CallState (provisions holds stops forgets)

variable {setup : RaftSetup} {w w' : RaftGroups} {slot manager : Nat} {old new : CallState}
  {config : QueueConfig} {update : Bool} {gid addr : String}

/-- What a call has in hand, if there is such a call. -/
def inHand {α : Type} (w : RaftGroups) (f : CallState → Option α) (i : Nat) : Option α :=
  (w.calls[i]?).bind f

lemma inHand_of_slot (hslot : w.calls[slot]? = some old) {α : Type} (f : CallState → Option α) :
    w.inHand f slot = f old := by
  rw [inHand, hslot, bind_some]

/-- One call has gone from one place to another. -/
structure Moved (w w' : RaftGroups) (slot : Nat) (old new : CallState) : Prop where
  before : w.calls[slot]? = some old
  after : ∀ i : Nat, w'.calls[i]? = if i = slot then some new else w.calls[i]?

lemma moved_goto (hslot : w.calls[slot]? = some old) (hcalls : w'.calls = w.calls) :
    Moved w (w'.goto slot new) slot old new := by
  refine ⟨hslot, fun i => ?_⟩
  simp only [goto, hcalls, List.getElem?_set]
  grind

lemma Moved.inHand_slot {α : Type} (h : Moved w w' slot old new) (f : CallState → Option α) :
    w.inHand f slot = f old :=
  inHand_of_slot h.before f

theorem Moved.inHand {α : Type} (h : Moved w w' slot old new) (f : CallState → Option α) (i : Nat) :
    w'.inHand f i = if i = slot then f new else w.inHand f i := by
  rw [RaftGroups.inHand, h.after]
  split
  · rw [Option.bind_some]
  · rfl

/-- A call that is made has nothing in hand. -/
lemma inHand_call {α : Type} {f : CallState → Option α} {call : QueueCall}
    (h : f call.begin = none) (i : Nat) :
    (w.step setup (.call call)).inHand f i = w.inHand f i := by
  simp only [RaftGroups.inHand, step, getElem?_append]
  split
  · rfl
  rename_i hi
  have hnone : w.calls[i]? = none := getElem?_eq_none (Nat.le_of_not_lt hi)
  rw [hnone, bind_none]
  cases i - w.calls.length with
  | zero => exact h
  | succ j => rfl

/-- Where a call begins. -/
lemma begin_cases (call : QueueCall) :
    (∃ config update, config.replication.enabled = true ∧
        call.begin = .acquiring config update .lookup) ∨
      (∃ config update, config.replication.enabled = false ∧
        call.begin = .assigning config update) ∨
      ∃ queueName, call.begin = .unmapping queueName := by
  have hassign : ∀ config update, CallState.assign config update = .acquiring config update .lookup ∧
      config.replication.enabled = true ∨ CallState.assign config update = .assigning config update ∧
      config.replication.enabled = false := by
    intro config update
    unfold CallState.assign
    cases config.replication.enabled <;> simp
  cases call with
  | ensureQueue config =>
    rcases hassign config false with ⟨h, he⟩ | ⟨h, he⟩
    · exact .inl ⟨config, false, he, h⟩
    · exact .inr (.inl ⟨config, false, he, h⟩)
  | updateQueue config =>
    rcases hassign config true with ⟨h, he⟩ | ⟨h, he⟩
    · exact .inl ⟨config, true, he, h⟩
    · exact .inr (.inl ⟨config, true, he, h⟩)
  | deleteQueue queueName => exact .inr (.inr ⟨queueName, rfl⟩)

/-- Who holds a manager is starting its group. -/
lemma provisions_of_holds {c : CallState} {g a : String} {r : Bool}
    (h : c.holds = some (manager, RaftManager.mk g a r)) : c.provisions = some (g, a) := by
  unfold holds at h
  split at h
  · obtain ⟨hg, ha, -⟩ := RaftManager.mk.inj (Prod.mk.inj (Option.some.inj h)).2
    rw [provisions, hg, ha]
  · obtain ⟨hg, ha, -⟩ := RaftManager.mk.inj (Prod.mk.inj (Option.some.inj h)).2
    rw [provisions, hg, ha]
  · cases h

lemma holds_eq_none {c : CallState} (h : c.provisions = none) : c.holds = none := by
  rw [eq_none_iff_forall_ne_some]
  rintro ⟨m, g, a, r⟩ hholds
  rw [provisions_of_holds hholds] at h
  cases h

lemma inHand_provisions {i : Nat} {g a : String} {r : Bool}
    (h : w.inHand holds i = some (manager, RaftManager.mk g a r)) :
    w.inHand provisions i = some (g, a) := by
  obtain ⟨c, hc, hholds⟩ := bind_eq_some_iff.1 h
  rw [inHand, hc, bind_some, provisions_of_holds hholds]

/-- The manager is stopped, if it is there. -/
lemma started_stopManager {r : RaftManager} (h : w.started[manager]? = some r) (i : Nat) :
    (w.stopManager manager).started[i]? =
      if i = manager then some { r with running := false } else w.started[i]? := by
  simp only [stopManager, h]
  split
  · grind
  rename_i hstopped
  by_cases hi : i = manager
  · subst hi
    rw [if_pos rfl, h, ← Bool.eq_false_iff.2 hstopped]
  · rw [if_neg hi]

/-- The calls and the tables stay as they are. -/
lemma frame_stopManager (manager : Nat) :
    (w.stopManager manager).calls = w.calls ∧ (w.stopManager manager).provisioner = w.provisioner ∧
      (w.stopManager manager).queueGroups = w.queueGroups ∧
      (w.stopManager manager).groupMembers = w.groupMembers := by
  unfold stopManager
  split
  · split <;> exact ⟨rfl, rfl, rfl, rfl⟩
  · exact ⟨rfl, rfl, rfl, rfl⟩

/-- There are no calls at the start. -/
lemma inHand_boot {α : Type} (f : CallState → Option α) (i : Nat) (a : α) :
    (boot setup).inHand f i ≠ some a :=
  (some_ne_none a).symm

lemma managers_boot : (boot setup).provisioner.managers gid = some manager ↔
    ∃ a, setup.runtimes[manager]? = some (gid, a) := by
  show (setup.runtimes.map Prod.fst).idxOf? gid = some manager ↔ _
  rw [idxOf?_eq_some_iff_getElem? setup.groups_nodup, getElem?_map]
  simp

lemma started_boot {r : Bool} : (boot setup).started[manager]? = some (RaftManager.mk gid addr r) ↔
    setup.runtimes[manager]? = some (gid, addr) ∧ r = true := by
  show (setup.runtimes.map fun r => RaftManager.mk r.1 r.2 true)[manager]? = _ ↔ _
  grind

/-! ### Managers and addresses -/

/-- What holds of the provisioner whatever the calls do. A manager that runs is in the tables or in
the hands of the one call that is starting it, and its address is reserved. -/
structure Sole (w : RaftGroups) : Prop where
  managers : ∀ g m, w.provisioner.managers g = some m →
    ∃ a r, w.started[m]? = some (RaftManager.mk g a r)
  idle : ∀ g, w.provisioner.inflight g = true → w.provisioner.managers g = none
  provisioning : ∀ i g a, w.inHand provisions i = some (g, a) →
    w.provisioner.inflight g = true ∧ w.provisioner.usedBind a = some g
  oneProvision : ∀ i j g a b, w.inHand provisions i = some (g, a) →
    w.inHand provisions j = some (g, b) → i = j
  holding : ∀ i m r, w.inHand holds i = some (m, r) → w.started[m]? = some r
  running : ∀ (m : Nat) g a, w.started[m]? = some (RaftManager.mk g a true) →
    w.provisioner.managers g = some m ∨ ∃ i, w.inHand holds i = some (m, ⟨g, a, true⟩)
  bound : ∀ (m : Nat) g a, w.started[m]? = some (RaftManager.mk g a true) →
    w.provisioner.usedBind a = some g
  stopping : ∀ i g m, w.inHand stops i = some (g, m) →
    ∃ a r, w.started[m]? = some (RaftManager.mk g a r)
  notHeld : ∀ i j g m r, w.inHand stops i = some (g, m) → w.inHand holds j ≠ some (m, r)
  stopped : ∀ i g m, w.inHand forgets i = some (g, m) →
    ∃ a, w.started[m]? = some (RaftManager.mk g a false)

attribute [grind →] Sole.managers Sole.idle Sole.provisioning Sole.oneProvision Sole.holding
  Sole.running Sole.bound Sole.stopping Sole.stopped

namespace Sole

/-- No two running managers share a group or an address. -/
lemma exclusive (h : w.Sole) : w.Exclusive := by
  intro one other g g' a a' hone hother hshared
  -- Who shares an address shares the group it is reserved for.
  have hgroup : g = g' := by
    rcases hshared with hg | rfl
    · exact hg
    · exact Option.some.inj ((h.bound one g a hone).symm.trans (h.bound other g' a hother))
  subst hgroup
  have hnone : ∀ i m a, w.inHand holds i = some (m, RaftManager.mk g a true) →
      w.provisioner.managers g = none :=
    fun i m a hr => h.idle g (h.provisioning i g a (inHand_provisions hr)).1
  rcases h.running one g a hone with hone | ⟨i, hr⟩ <;>
    rcases h.running other g a' hother with hother | ⟨j, hr'⟩
  · exact Option.some.inj (hone.symm.trans hother)
  · exact absurd (hone.symm.trans (hnone j _ _ hr')) (some_ne_none _)
  · exact absurd (hother.symm.trans (hnone i _ _ hr)) (some_ne_none _)
  · -- Both are in the hands of the one call that is starting the group.
    obtain rfl := h.oneProvision i j g a a' (inHand_provisions hr) (inHand_provisions hr')
    exact congrArg Prod.fst (Option.some.inj (hr.symm.trans hr'))

/-- Calls that have nothing of the provisioner in hand change nothing. -/
lemma of_calls (h : w.Sole) (hprov : w'.provisioner = w.provisioner)
    (hstarted : w'.started = w.started)
    (hprovisions : ∀ i, w'.inHand provisions i = w.inHand provisions i)
    (hholds : ∀ i, w'.inHand holds i = w.inHand holds i)
    (hstops : ∀ i g m, w'.inHand stops i = some (g, m) →
      w.inHand stops i = some (g, m) ∨ w.provisioner.managers g = some m)
    (hforgets : ∀ i g m, w'.inHand forgets i = some (g, m) → w.inHand forgets i = some (g, m)) :
    w'.Sole := by
  obtain ⟨managers, idle, provisioning, oneProvision, holding, running, bound, stopping, notHeld,
    stopped⟩ := h
  constructor <;> simp only [hprov, hstarted, hprovisions, hholds] <;> try assumption
  case stopping =>
    intro i g m hi
    rcases hstops i g m hi with hi | hm
    · exact stopping i g m hi
    · exact managers g m hm
  case notHeld =>
    intro i j g m r hi hj
    rcases hstops i g m hi with hi | hm
    · exact notHeld i j g m r hi hj
    -- A manager in the tables has been handed over.
    obtain ⟨a, b, ha⟩ := managers g m hm
    obtain rfl : r = RaftManager.mk g a b := Option.some.inj ((holding j m r hj).symm.trans ha)
    have hidle := idle g (provisioning j g a (inHand_provisions hj)).1
    exact absurd (hm.symm.trans hidle) (some_ne_none m)
  case stopped => exact fun i g m hi => stopped i g m (hforgets i g m hi)

/-- A place is reserved in which a group is started. -/
lemma reserve (h : w.Sole) (hmoved : Moved w w' slot (.acquiring config update .provision)
      (.acquiring config update (.start addr)))
    (hmanagers : w'.provisioner.managers = w.provisioner.managers)
    (hinflight : w'.provisioner.inflight =
      Function.update w.provisioner.inflight config.raftGroup true)
    (husedBind : w'.provisioner.usedBind =
      Function.update w.provisioner.usedBind addr (some config.raftGroup))
    (hstarted : w'.started = w.started) (hfree : w.provisioner.managers config.raftGroup = none)
    (hidle : w.provisioner.inflight config.raftGroup = false)
    (hbind : ∀ g, w.provisioner.usedBind addr = some g → g = config.raftGroup) : w'.Sole := by
  have hholds := hmoved.inHand_slot holds
  simp only [holds] at hholds
  have hnotHeld := h.notHeld
  constructor <;>
    simp only [hmoved.inHand, provisions, holds, stops, forgets, hstarted, hmanagers, hinflight, husedBind, Function.update_apply]
  case managers => exact h.managers
  all_goals grind

/-- A manager is started. -/
lemma start (h : w.Sole) (hmoved : Moved w w' slot (.acquiring config update (.start addr))
      (.acquiring config update (.waitLeader w.started.length addr)))
    (hprov : w'.provisioner = w.provisioner)
    (hstarted : w'.started = w.started ++ [RaftManager.mk config.raftGroup addr true]) :
    w'.Sole := by
  have hprovisions := hmoved.inHand_slot provisions
  have hholds := hmoved.inHand_slot holds
  simp only [provisions, holds] at hprovisions hholds
  have hlast : ∀ i : Nat, w'.started[i]? =
      if i = w.started.length then some (RaftManager.mk config.raftGroup addr true)
      else w.started[i]? := by
    intro i
    grind
  have hnotHeld := h.notHeld
  constructor <;>
    simp only [hmoved.inHand, provisions, holds, stops, forgets, hprov, hlast]
  case idle => exact h.idle
  all_goals grind

/-- A manager that finds no leader is stopped. -/
lemma abandon (h : w.Sole)
    (hmoved : Moved w w' slot (.acquiring config update (.waitLeader manager addr))
      (.acquiring config update (.finish none addr))) (hprov : w'.provisioner = w.provisioner)
    (hstarted : ∀ i : Nat, w'.started[i]? =
      if i = manager then some (RaftManager.mk config.raftGroup addr false) else w.started[i]?) :
    w'.Sole := by
  have hprovisions := hmoved.inHand_slot provisions
  have hholds := hmoved.inHand_slot holds
  simp only [provisions, holds] at hprovisions hholds
  have hnotHeld := h.notHeld
  -- The manager was in the hands of this call only.
  have hown : ∀ i r, w.inHand holds i = some (manager, r) → i = slot := by
    intro i r hi
    have hr : r = RaftManager.mk config.raftGroup addr true :=
      Option.some.inj ((h.holding i manager r hi).symm.trans (h.holding slot manager _ hholds))
    subst hr
    exact h.oneProvision i slot config.raftGroup addr addr (inHand_provisions hi) hprovisions
  constructor <;>
    simp only [hmoved.inHand, provisions, holds, stops, forgets, hprov, hstarted]
  case idle => exact h.idle
  all_goals grind

/-- The manager that was started is put into the tables. -/
lemma handOver (h : w.Sole)
    (hmoved : Moved w w' slot (.acquiring config update (.finish (some manager) addr))
      (.acquiring config update (.register manager))) (hmanagers : w'.provisioner.managers =
      Function.update w.provisioner.managers config.raftGroup (some manager))
    (hinflight : w'.provisioner.inflight =
      Function.update w.provisioner.inflight config.raftGroup false)
    (husedBind : w'.provisioner.usedBind = w.provisioner.usedBind)
    (hstarted : w'.started = w.started) : w'.Sole := by
  have hprovisions := hmoved.inHand_slot provisions
  have hholds := hmoved.inHand_slot holds
  simp only [provisions, holds] at hprovisions hholds
  have hnotHeld := h.notHeld
  constructor <;>
    simp only [hmoved.inHand, provisions, holds, stops, forgets, hstarted, hmanagers, hinflight,
      husedBind, Function.update_apply]
  case bound => exact h.bound
  all_goals grind

/-- An address that is given up is that of no running manager of another group. -/
lemma usedBind_releaseBind (p : Provisioner) (gid addr a : String) {g : String}
    (h : p.usedBind a = some g) (hg : g ≠ gid) : p.releaseBind gid addr a = some g := by
  unfold Provisioner.releaseBind
  split
  · grind
  · exact h

/-- Nothing was started, and the reservation is given up. -/
lemma rollBack (h : w.Sole)
    (hmoved : Moved w w' slot (.acquiring config update (.finish none addr)) new)
    (hnew : new.provisions = none ∧ new.stops = none ∧ new.forgets = none)
    (hmanagers : w'.provisioner.managers = w.provisioner.managers)
    (hinflight : w'.provisioner.inflight =
      Function.update w.provisioner.inflight config.raftGroup false)
    (husedBind : w'.provisioner.usedBind = w.provisioner.releaseBind config.raftGroup addr)
    (hstarted : w'.started = w.started) : w'.Sole := by
  have hprovisions := hmoved.inHand_slot provisions
  have hholds := hmoved.inHand_slot holds
  simp only [provisions, holds] at hprovisions hholds
  have hnotHeld := h.notHeld
  -- No manager of the group runs.
  have hnone : ∀ (m : Nat) a, w.started[m]? ≠ some (RaftManager.mk config.raftGroup a true) := by
    intro m a hm
    rcases h.running m _ a hm with hm | ⟨i, hi⟩
    · have hidle := h.idle _ (h.provisioning slot _ _ hprovisions).1
      exact absurd (hm.symm.trans hidle) (Option.some_ne_none m)
    · have hslot := h.oneProvision i slot config.raftGroup a addr (inHand_provisions hi) hprovisions
      rw [hslot, hholds] at hi
      cases hi
  have hrelease := fun g a => usedBind_releaseBind w.provisioner config.raftGroup addr a (g := g)
  have hnewHolds : new.holds = none := holds_eq_none hnew.1
  constructor <;>
    simp only [hmoved.inHand, hnew, hnewHolds, hstarted, hmanagers, hinflight, husedBind,
      Function.update_apply]
  case managers => exact h.managers
  all_goals grind

/-- A manager is stopped. -/
lemma stop {bindAddr : Option String} {a : String} (h : w.Sole)
    (hmoved : Moved w w' slot (.releasing gid (.stop manager bindAddr))
      (.releasing gid (.forget manager bindAddr))) (hprov : w'.provisioner = w.provisioner)
    (hstarted : ∀ i : Nat, w'.started[i]? =
      if i = manager then some (RaftManager.mk gid a false) else w.started[i]?) : w'.Sole := by
  have hstops := hmoved.inHand_slot stops
  have hholds := hmoved.inHand_slot holds
  have hprovisions := hmoved.inHand_slot provisions
  simp only [stops, holds, provisions] at hstops hholds hprovisions
  have hnotHeld := h.notHeld
  constructor <;>
    simp only [hmoved.inHand, provisions, holds, stops, forgets, hprov, hstarted]
  case idle => exact h.idle
  all_goals grind

/-- The stopped manager is taken out of the tables. -/
lemma forget {bindAddr : Option String} (h : w.Sole)
    (hmoved : Moved w w' slot (.releasing gid (.forget manager bindAddr))
      (.releasing gid .dropMember)) (hmanager : w.provisioner.managers gid = some manager)
    (hprov : w'.provisioner = w.provisioner.forget gid bindAddr)
    (hstarted : w'.started = w.started) : w'.Sole := by
  have hforgets := hmoved.inHand_slot forgets
  have hholds := hmoved.inHand_slot holds
  have hprovisions := hmoved.inHand_slot provisions
  simp only [forgets, holds, provisions] at hforgets hholds hprovisions
  have hnotHeld := h.notHeld
  -- The group is not being started, and no manager of it runs.
  have hidle : w.provisioner.inflight gid = false := by grind
  have hnone : ∀ (m : Nat) a, w.started[m]? ≠ some (RaftManager.mk gid a true) := by
    intro m a hm
    rcases h.running m gid a hm with hm' | ⟨i, hi⟩
    · grind
    · rw [(h.provisioning i gid a (inHand_provisions hi)).1] at hidle
      cases hidle
  have hbind : ∀ a g, w.provisioner.usedBind a = some g → g ≠ gid →
      w'.provisioner.usedBind a = some g := by
    intro a g ha hg
    rw [hprov]
    cases bindAddr with
    | none => exact ha
    | some addr => exact usedBind_releaseBind w.provisioner gid addr a ha hg
  have hmanagers : w'.provisioner.managers = update w.provisioner.managers gid none := by
    rw [hprov]
    rfl
  have hinflight : w'.provisioner.inflight = w.provisioner.inflight := by
    rw [hprov]
    rfl
  constructor <;>
    simp only [hmoved.inHand, provisions, holds, stops, forgets, hstarted, hmanagers, hinflight,
      update_apply]
  all_goals grind

/-- A call goes on without having anything of the provisioner in hand. -/
lemma move (h : w.Sole) (hmoved : Moved w w' slot old new)
    (hprov : w'.provisioner = w.provisioner) (hstarted : w'.started = w.started)
    (hprovisions : old.provisions = new.provisions) (hholds : old.holds = new.holds)
    (hstops : ∀ g m, new.stops = some (g, m) → w.provisioner.managers g = some m)
    (hforgets : new.forgets = none) : w'.Sole := by
  refine h.of_calls hprov hstarted (fun i => ?_) (fun i => ?_) (fun i g m hi => ?_)
    fun i g m hi => ?_
  · rw [hmoved.inHand]
    split
    · rename_i hi
      rw [hi, hmoved.inHand_slot, hprovisions]
    · rfl
  · rw [hmoved.inHand]
    split
    · rename_i hi
      rw [hi, hmoved.inHand_slot, hholds]
    · rfl
  · rw [hmoved.inHand] at hi
    split at hi
    · exact .inr (hstops g m hi)
    · exact .inl hi
  · rw [hmoved.inHand] at hi
    split at hi
    · rw [hforgets] at hi
      cases hi
    · exact hi

lemma ensureGroup (h : w.Sole) {stage : AcquireStage}
    (hslot : w.calls[slot]? = some (.acquiring config update stage)) (ok : Bool) :
    (w.ensureGroup setup slot ok config update stage).Sole := by
  have hgoto : ∀ new : CallState, stage = .lookup ∨ stage = .provision ∨ (∃ m, stage = .register m) →
      new.provisions = none → new.stops = none → new.forgets = none → (w.goto slot new).Sole := by
    intro new hstage hprovisions hstops hforgets
    refine h.move (moved_goto hslot rfl) rfl rfl ?_ ?_ ?_ hforgets
    · rw [hprovisions]
      obtain rfl | rfl | ⟨m, rfl⟩ := hstage <;> rfl
    · rw [holds_eq_none hprovisions]
      obtain rfl | rfl | ⟨m, rfl⟩ := hstage <;> rfl
    · intro g m hm
      rw [hstops] at hm
      cases hm
  cases stage with
  | lookup =>
    have hmove := fun new => hgoto new (.inl rfl)
    simp only [RaftGroups.ensureGroup]
    split
    · exact hmove _ rfl rfl rfl
    split
    · exact hmove _ rfl rfl rfl
    · exact hmove _ rfl rfl rfl
  | provision =>
    have hmove := fun new => hgoto new (.inr (.inl rfl))
    simp only [RaftGroups.ensureGroup, Provisioner.getOrCreateGroup]
    cases hmanager : w.provisioner.managers config.raftGroup with
    | some m => exact hmove _ rfl rfl rfl
    | none =>
      cases hinflight : w.provisioner.inflight config.raftGroup with
      | true => exact h
      | false =>
        cases setup.raft.runtimeAddr (fun addr => (w.provisioner.usedBind addr).isSome)
            config.raftGroup with
        | error err => exact hmove _ rfl rfl rfl
        | ok addr =>
          simp only
          cases hbind : (w.provisioner.usedBind addr).filter
              (fun existing => existing != config.raftGroup) with
          | some existing => exact hmove _ rfl rfl rfl
          | none =>
            refine h.reserve (moved_goto hslot rfl) rfl rfl rfl rfl hmanager hinflight ?_
            intro g hg
            rw [hg] at hbind
            simpa [Option.filter] using hbind
  | start addr =>
    simp only [RaftGroups.ensureGroup]
    split
    · exact h.start (moved_goto hslot rfl) rfl rfl
    · exact h.move (moved_goto hslot rfl) rfl rfl rfl rfl (fun _ _ => nofun) rfl
  | waitLeader m addr =>
    simp only [RaftGroups.ensureGroup]
    split
    · exact h.move (moved_goto hslot rfl) rfl rfl rfl rfl (fun _ _ => nofun) rfl
    · have hm := h.holding slot m ⟨config.raftGroup, addr, true⟩ (inHand_of_slot hslot _)
      obtain ⟨hcalls, hprov, -⟩ := frame_stopManager (w := w) m
      exact h.abandon (moved_goto hslot hcalls) hprov (started_stopManager hm)
  | finish m addr =>
    cases m with
    | some m => exact h.handOver (moved_goto hslot rfl) rfl rfl rfl rfl
    | none => exact h.rollBack (moved_goto hslot rfl) ⟨rfl, rfl, rfl⟩ rfl rfl rfl rfl
  | register m =>
    have hmove := fun new => hgoto new (.inr (.inr ⟨m, rfl⟩))
    simp only [RaftGroups.ensureGroup]
    split
    · exact hmove _ rfl rfl rfl
    · exact h.move (moved_goto hslot rfl) rfl rfl rfl rfl (fun _ _ => nofun) rfl

lemma maybeReleaseGroup (h : w.Sole) {stage : ReleaseStage}
    (hslot : w.calls[slot]? = some (.releasing gid stage)) :
    (w.maybeReleaseGroup setup slot gid stage).Sole := by
  have hmove : ∀ {w' : RaftGroups} {new : CallState}, Moved w w' slot (.releasing gid stage) new →
      w'.provisioner = w.provisioner → w'.started = w.started → new.provisions = none →
      (∀ g m, new.stops = some (g, m) → w.provisioner.managers g = some m) → new.forgets = none →
      w'.Sole := fun hmoved hprov hstarted hprovisions =>
    h.move hmoved hprov hstarted hprovisions.symm (holds_eq_none hprovisions).symm
  cases stage with
  | check | dropMember =>
    simp only [RaftGroups.maybeReleaseGroup]
    split
    all_goals exact hmove (moved_goto hslot rfl) rfl rfl rfl (fun _ _ => nofun) rfl
  | tryRelease =>
    simp only [RaftGroups.maybeReleaseGroup]
    split
    · exact hmove (moved_goto hslot rfl) rfl rfl rfl (fun _ _ => nofun) rfl
    split
    · exact hmove (moved_goto hslot rfl) rfl rfl rfl (fun _ _ => nofun) rfl
    rename_i m hm
    refine hmove (moved_goto hslot rfl) rfl rfl rfl (fun g m' hstops => ?_) rfl
    obtain ⟨rfl, rfl⟩ := Prod.mk.inj (Option.some.inj hstops)
    exact hm
  | stop m bindAddr =>
    obtain ⟨a, r, hm⟩ := h.stopping slot gid m (inHand_of_slot hslot _)
    obtain ⟨hcalls, hprov, -⟩ := frame_stopManager (w := w) m
    exact h.stop (moved_goto hslot hcalls) hprov (started_stopManager hm)
  | forget m bindAddr =>
    simp only [RaftGroups.maybeReleaseGroup]
    split
    · rename_i hm
      exact h.forget (moved_goto hslot rfl) hm rfl rfl
    · exact hmove (moved_goto hslot rfl) rfl rfl rfl (fun _ _ => nofun) rfl

/-- A call begins with nothing in hand. -/
lemma idle_begin (call : QueueCall) :
    call.begin.provisions = none ∧ call.begin.stops = none ∧ call.begin.forgets = none := by
  rcases begin_cases call with ⟨config, update, -, h⟩ | ⟨config, update, -, h⟩ | ⟨queueName, h⟩ <;>
    rw [h] <;> exact ⟨rfl, rfl, rfl⟩

lemma step (h : w.Sole) (action : CoordinatorAction) : (w.step setup action).Sole := by
  cases action with
  | call call =>
    obtain ⟨hprovisions, hstops, hforgets⟩ := idle_begin call
    refine h.of_calls rfl rfl (fun i => ?_) (fun i => ?_) (fun i g m hi => ?_) fun i g m hi => ?_
    · exact inHand_call hprovisions i
    · exact inHand_call (holds_eq_none hprovisions) i
    · rw [inHand_call hstops] at hi
      exact .inl hi
    · rw [inHand_call hforgets] at hi
      exact hi
  | advance slot ok =>
    simp only [RaftGroups.step]
    split
    · rename_i state hcrashed hslot
      cases state with
      | returned err => exact h
      | acquiring config update stage => exact h.ensureGroup hslot ok
      | assigning config update =>
        simp only [RaftGroups.advance, assign]
        split
        · split
          all_goals exact h.move (moved_goto hslot rfl) rfl rfl rfl rfl (fun _ _ => nofun) rfl
        · exact h.move (moved_goto hslot rfl) rfl rfl rfl rfl (fun _ _ => nofun) rfl
      | unmapping queueName =>
        simp only [RaftGroups.advance, unmap]
        split
        all_goals exact h.move (moved_goto hslot rfl) rfl rfl rfl rfl (fun _ _ => nofun) rfl
      | releasing gid stage => exact h.maybeReleaseGroup hslot
    · exact h

lemma boot (setup : RaftSetup) : (boot setup).Sole where
  managers := fun g m hm => by
    obtain ⟨a, ha⟩ := managers_boot.1 hm
    exact ⟨a, true, started_boot.2 ⟨ha, rfl⟩⟩
  idle := fun g hg => absurd hg Bool.false_ne_true
  provisioning := fun i g a hi => absurd hi (inHand_boot _ i _)
  oneProvision := fun i j g a b hi => absurd hi (inHand_boot _ i _)
  holding := fun i m r hi => absurd hi (inHand_boot _ i _)
  running := fun m g a hm => .inl (managers_boot.2 ⟨a, (started_boot.1 hm).1⟩)
  bound := fun m g a hm => by
    have hmem : (g, a) ∈ setup.runtimes := mem_of_getElem? (started_boot.1 hm).1
    have hfind := (find?_key_eq_some_iff setup.addrs_nodup).2 ⟨hmem, rfl⟩
    show (setup.runtimes.find? fun r => r.2 == a).map Prod.fst = some g
    rw [hfind, Option.map_some]
  stopping := fun i g m hi => absurd hi (inHand_boot _ i _)
  notHeld := fun i j g m r hi => absurd hi (inHand_boot _ i _)
  stopped := fun i g m hi => absurd hi (inHand_boot _ i _)

end Sole

end RaftGroups

end FluxMQ
