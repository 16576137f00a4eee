import FluxMQ.Logstorage.Compaction

/-!
# Recovery of a consumer state from a crash in a compaction

A crash between the first and the last write of a compaction leaves files of which some are new,
and the log as it was. Replaying the log over them makes again what the new files contain already.
For the cursor this changes nothing. An entry comes out right unless the log charged a delivery to
it and nothing in the log settles the offset: then the charge is counted twice. The ack floor
comes out right unless an acknowledgement that is made again finds the next offset free, because
its delivery comes later in the log.
-/

namespace FluxMQ

open ConsumerState StateFiles StateEffect

section

variable {n k : Nat}

lemma state_mem_take (hk : 0 < k) : .state ∈ (compactWrites n).take k := by
  obtain ⟨k, rfl⟩ := Nat.exists_eq_succ_of_ne_zero hk.ne'
  simp [compactWrites]

lemma truncate_not_mem_take (hk : k < (compactWrites n).length) :
    .truncate ∉ (compactWrites n).take k := by
  intro hmem
  have hlast : k ≤ (CompactWrite.state :: (List.finRange n).map CompactWrite.shard).length := by
    simpa [compactWrites, Nat.lt_succ_iff] using hk
  rw [compactWrites, List.take_append_of_le_length hlast] at hmem
  simpa using List.mem_of_mem_take hmem

end

variable {n : Nat} [NeZero n]

/-- The changes that the log records. -/
def StateFiles.effects (files : StateFiles n) : List StateEffect :=
  files.log.flatMap LogOperation.effects

namespace StateProcess

variable (p : StateProcess n)

/-- No charge to an entry in a shard file written by then would be counted twice: where the log
charges an offset that is pending, it also delivers, restores or acknowledges it. -/
def ChargesSettled (k : Nat) : Prop :=
  ∀ offset, .shard (shardKey n offset) ∈ (compactWrites n).take k →
    (p.state.holding offset).isSome → (∃ e ∈ p.files.effects, e.Charges offset) →
      ∃ e ∈ p.files.effects, e.Resets offset

/-- No acknowledgement in the log would raise the floor when made again: there is none, or the
floor has caught up with a cursor that was never set, or the offset after the floor has been
pending since the last compaction. -/
def FloorHeld : Prop :=
  (∀ e ∈ p.files.effects, ¬ e.Acks) ∨
    ((∀ e ∈ p.files.effects, ¬ e.Seeks) ∧ p.state.cursor ≤ p.state.ackFloor + 1) ∨
    ((p.files.load.holding (p.state.ackFloor + 1)).isSome ∧
      .ack (p.state.ackFloor + 1) ∉ p.files.effects)

/-- A crash after `k` writes of a compaction can be recovered from: no file is new yet, or all
are and the log is empty, or what the log makes again was not made yet or can be made twice. -/
def Recoverable (k : Nat) : Prop :=
  k = 0 ∨ (compactWrites n).length ≤ k ∨ (p.ChargesSettled k ∧ p.FloorHeld)

/-- Opening the files gives the progress of the state in memory. -/
def Persisted : Prop :=
  ConsumerState.SameProgress p.files.reopen p.state

variable {p} {k : Nat}

/-! ### A whole compaction -/

/-- The files of a whole compaction hold the progress of the state. -/
lemma sameProgress_compact (cs : ConsumerState) (files : StateFiles n) :
    ConsumerState.SameProgress (files.compact cs).reopen cs := by
  have hlog : (files.compact cs).log = [] := by
    rw [compact, log_foldl_write]
    simp [compactWrites]
  have hgroup : (files.compact cs).group = cs.group := by
    rw [compact, group_foldl_write]
    simp [compactWrites]
  rw [reopen, hlog]
  refine ⟨congrArg GroupState.cursor hgroup, congrArg GroupState.ackFloor hgroup, fun offset => ?_⟩
  show (files.compact cs).load.holding offset = cs.holding offset
  rw [compact, holding_load_foldl_write]
  simp [compactWrites]

/-! ### A crash between the writes -/

/-- The files as a crash leaves them between the first and the last write. -/
lemma group_compactTo (hk : 0 < k) : (p.files.compactTo p.state k).group = p.state.group := by
  rw [compactTo, group_foldl_write, if_pos (state_mem_take hk)]

lemma log_compactTo (hk : k < (compactWrites n).length) :
    (p.files.compactTo p.state k).log = p.files.log := by
  rw [compactTo, log_foldl_write, if_neg (truncate_not_mem_take hk)]

variable (hp : p.Persisted)

include hp

/-- What is held in memory is what the log makes of the snapshots. -/
lemma Persisted.holding (offset : Nat) : p.state.holding offset =
    p.files.effects.foldl (StateEffect.onHolding offset) (p.files.load.holding offset) := by
  rw [← ConsumerState.SameProgress.holding hp offset, StateFiles.reopen, ConsumerState.replay_eq,
    ConsumerState.holding_foldl_applyEffect]
  rfl

lemma Persisted.cursor :
    p.state.cursor = p.files.effects.foldl StateEffect.onCursor p.files.load.cursor := by
  rw [← ConsumerState.SameProgress.cursor hp, StateFiles.reopen, ConsumerState.replay_eq,
    ConsumerState.cursor_foldl_applyEffect]
  rfl

/-- What is held comes out of the replay as it was. -/
lemma holding_replay (hcharges : p.ChargesSettled k) (offset : Nat) :
    p.files.effects.foldl (onHolding offset) ((p.files.compactTo p.state k).load.holding offset) =
      p.state.holding offset := by
  rw [compactTo, holding_load_foldl_write]
  split
  · -- The shard's file is new: its content has seen the log already.
    rename_i hwritten
    rw [hp.holding offset]
    refine foldl_onHolding_foldl fun e he hcharge hheld => ?_
    exact hcharges offset hwritten (by rwa [hp.holding offset]) ⟨e, he, hcharge⟩
  · exact (hp.holding offset).symm

/-- The cursor comes out of the replay as it was. -/
lemma cursor_replay : p.files.effects.foldl onCursor p.state.cursor = p.state.cursor := by
  rw [hp.cursor]
  exact foldl_onCursor_foldl

/-- The floor comes out of the replay as it was if what keeps the next offset from being free is
kept by every change of the log. -/
lemma ackFloor_foldl_eq {cs : ConsumerState} {J : ConsumerState → Prop}
    (hfloor : cs.ackFloor = p.state.ackFloor) (hJ : J cs)
    (hstep : ∀ cs, J cs → ∀ e ∈ p.files.effects, J (cs.applyEffect e))
    (hblocked : ∀ cs, J cs → ∀ e ∈ p.files.effects, e.Acks →
      cs.cursor ≤ p.state.ackFloor + 1 ∨
        ((cs.applyEffect e).holding (p.state.ackFloor + 1)).isSome) :
    (p.files.effects.foldl applyEffect cs).ackFloor = p.state.ackFloor := by
  -- A floor that the log restores is one that the state has reached.
  have hadvance : ∀ floor, .advanceFloor floor ∈ p.files.effects → floor ≤ p.state.ackFloor := by
    intro floor hmem
    rw [← ConsumerState.SameProgress.ackFloor hp, reopen, replay_eq]
    exact le_ackFloor_foldl_applyEffect hmem
  refine (List.foldlRecOn (motive := fun cs => cs.ackFloor = p.state.ackFloor ∧ J cs)
    p.files.effects applyEffect ⟨hfloor, hJ⟩ ?_).1
  rintro cs ⟨hfloor, hJ⟩ e he
  refine ⟨?_, hstep cs hJ e he⟩
  rw [ackFloor_applyEffect_eq_self, hfloor]
  · rintro floor rfl
    exact hfloor ▸ hadvance floor he
  · intro hack
    rw [hfloor]
    exact hblocked cs hJ e he hack

lemma ackFloor_replay (hk : 0 < k) (hheld : p.FloorHeld) :
    (p.files.effects.foldl applyEffect
        (p.files.compactTo p.state k).load).ackFloor = p.state.ackFloor := by
  have hfloor : (p.files.compactTo p.state k).load.ackFloor = p.state.ackFloor :=
    congrArg GroupState.ackFloor (group_compactTo hk)
  have hcursor : (p.files.compactTo p.state k).load.cursor = p.state.cursor :=
    congrArg GroupState.cursor (group_compactTo hk)
  rcases hheld with hnone | ⟨hseeks, hcaught⟩ | ⟨hpending, hack⟩
  · exact ackFloor_foldl_eq (J := fun _ => True) hp hfloor trivial (fun _ _ _ _ => trivial)
      fun _ _ e he hacks => absurd hacks (hnone e he)
  · -- The cursor stays where it is, and the floor has caught up with it.
    refine ackFloor_foldl_eq (J := fun cs => cs.cursor = p.state.cursor) hp hfloor hcursor ?_ ?_
    · intro cs hcs e he
      rw [cursor_applyEffect, hcs, hp.cursor]
      exact onCursor_foldl_eq_self hseeks he
    · intro cs hcs e he hacks
      exact .inl (hcs ▸ hcaught)
  -- The next offset is pending in the old files and in the new ones, and stays so.
  have hkept : ∀ cs : ConsumerState, (cs.holding (p.state.ackFloor + 1)).isSome →
      ∀ e ∈ p.files.effects, ((cs.applyEffect e).holding (p.state.ackFloor + 1)).isSome := by
    intro cs hcs e he
    rw [holding_applyEffect]
    exact isSome_onHolding (fun h => hack (h ▸ he)) hcs
  have hstate : (p.state.holding (p.state.ackFloor + 1)).isSome := by
    rw [hp.holding, ← holding_foldl_applyEffect]
    exact List.foldlRecOn (motive := fun cs => (cs.holding (p.state.ackFloor + 1)).isSome)
      p.files.effects applyEffect hpending hkept
  refine ackFloor_foldl_eq
    (J := fun cs => (cs.holding (p.state.ackFloor + 1)).isSome) hp hfloor ?_ hkept
    fun cs hcs e he _ => .inr (hkept cs hcs e he)
  rw [compactTo, holding_load_foldl_write]
  split
  · exact hstate
  · exact hpending

/-- A crash that can be recovered from loses no progress. -/
lemma sameProgress_crash (h : p.Recoverable k) :
    ConsumerState.SameProgress (p.files.compactTo p.state k).reopen p.state := by
  rcases Nat.eq_zero_or_pos k with rfl | hk
  · exact hp
  rcases le_or_gt (compactWrites n).length k with hall | hpart
  · rw [compactTo, List.take_of_length_le hall]
    exact sameProgress_compact p.state p.files
  obtain rfl | hall | ⟨hcharges, hheld⟩ := h
  · exact absurd hk (lt_irrefl 0)
  · exact absurd hpart (not_lt.2 hall)
  rw [reopen, log_compactTo hpart, replay_eq]
  refine ⟨?_, ackFloor_replay hp hk hheld, fun offset => ?_⟩
  · rw [cursor_foldl_applyEffect]
    refine Eq.trans ?_ (cursor_replay hp)
    exact congrArg (p.files.effects.foldl onCursor)
      (congrArg GroupState.cursor (group_compactTo hk))
  · rw [holding_foldl_applyEffect]
    exact holding_replay hp hcharges offset

omit hp

/-! ### Whole runs -/

/-- After every action the files hold the progress of the state in memory. -/
lemma persisted_step (hp : p.Persisted) (action : StateAction) : (p.step action).Persisted := by
  cases action with
  | call c =>
    show ConsumerState.SameProgress _ (c.onState p.state)
    rw [← StateCall.replay_records, StateFiles.reopen]
    show ConsumerState.SameProgress (p.files.load.replay (p.files.log ++ c.records)) _
    rw [ConsumerState.replay, List.foldl_append]
    exact ConsumerState.SameProgress.replay hp c.records
  | compact => exact sameProgress_compact p.state p.files
  | crash k => exact ConsumerState.SameProgress.refl _

/-- In every run in which each crash can be recovered from, each crash leaves the progress as it
was. -/
theorem crash_keeps_progress (actions : List StateAction)
    (h : Transition.Along step (fun p action => ∀ k, action = .crash k → p.Recoverable k)
      ({} : StateProcess n) actions) :
    Transition.Along step
      (fun p action => ∀ k, action = .crash k →
        ConsumerState.SameProgress (p.step action).state p.state)
      ({} : StateProcess n) actions := by
  refine Transition.Along.of_invariant (I := Persisted)
    (fun p action hp _ => persisted_step hp action) ?_ ?_ h
  · rintro p _ hp hrecoverable k rfl
    exact sameProgress_crash hp (hrecoverable k rfl)
  · exact ⟨rfl, rfl, fun offset => by simp [StateFiles.reopen, StateFiles.load, ConsumerState.replay,
      ConsumerState.holding, ConsumerState.entryAt]⟩

/-- One record is delivered, the state is compacted, and the record is claimed. -/
def claimedProcess : StateProcess 8 :=
  Transition.run step {}
    [.call (.deliver 0 0 "a"), .compact, .call (.claim 0 0 "b")]

/-- A record is delivered and acknowledged, and the next one is delivered. -/
def ackedProcess : StateProcess 8 :=
  Transition.run step {}
    [.call (.deliver 0 1 "a"), .call (.ack 0 1), .call (.deliver 0 2 "a")]

/-- A crash after the first shard was written counts the claim twice, and a crash after the state
was written raises the floor over a pending record. -/
theorem crash_changes_progress :
    claimedProcess.state.holding 0 = some ("b", 2) ∧
      (claimedProcess.step (.crash 2)).state.holding 0 = some ("b", 3) ∧
      ackedProcess.state.ackFloor = 1 ∧ (ackedProcess.step (.crash 1)).state.ackFloor = 2 ∧
      (ackedProcess.step (.crash 1)).state.holding 2 = some ("a", 1) := by
  decide +kernel

/-- A record delivered and claimed since the last compaction survives a crash after its shard was
written. -/
theorem crash_keeps_progress_delivered :
    Transition.Along step
      (fun p action => ∀ k, action = .crash k →
        ConsumerState.SameProgress (p.step action).state p.state)
      ({} : StateProcess 8)
      [.call (.deliver 0 0 "a"), .call (.claim 0 0 "b"), .crash 2] := by
  refine crash_keeps_progress _ ⟨nofun, nofun, ?_, trivial⟩
  rintro k ⟨⟩
  have heffects : ((({} : StateProcess 8).step (.call (.deliver 0 0 "a"))).step
      (.call (.claim 0 0 "b"))).files.effects = [.deliver 0 "a" 0, .claim 0 "b" 0] := by
    decide +kernel
  refine .inr (.inr ⟨fun offset _ _ => ?_, .inl ?_⟩)
  · rw [heffects]
    simp [StateEffect.Charges, StateEffect.Resets]
  · rw [heffects]
    simp [StateEffect.Acks]

end StateProcess

end FluxMQ
