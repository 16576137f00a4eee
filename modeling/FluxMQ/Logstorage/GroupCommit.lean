import FluxMQ.Library.Runs

/-!
# Group commit

`syncThrough` of `logstorage/groupcommit.go` as `Segment.SyncThrough` and `appendDurable` call it.
One caller performs the fsync of a segment and all that have come before it started ride the same
barrier. The steps of the callers are interleaved with each other, with the appends to the segment
and with everything that holds the lock of the segment manager.

A section of the code that holds one lock and waits for nothing else is one step. The section that
records a failure is not of this kind: it holds the lock of the commit and waits for the lock of the
manager, and the lock of the manager is free again before the barrier is closed.

* `GroupCommit.Invariant`: what holds between the callers, the barrier in flight and the record of
  the attempts.
* `GroupCommit.commits`: no call is acknowledged early, and the other guarantees of a barrier.
-/

namespace FluxMQ

open Function List

/-- Why a barrier failed. -/
inductive SyncError where
  | segmentClosed
  | file
  | index
  | timeIndex
  deriving Repr, DecidableEq

/-- How far a call of `syncThrough` has come. The call that leads a barrier carries its number. -/
inductive SyncCall where
  | absent
  /-- At the head of the loop. -/
  | looping (offset : Nat)
  /-- Parked on the barrier of another call. -/
  | riding (offset barrier : Nat)
  /-- Has taken the lead and is to read the segment. -/
  | leading (offset barrier : Nat)
  /-- Has read what the barrier will cover and is to start the fsync. -/
  | captured (offset barrier covered : Nat)
  /-- The fsync is under way since the segment had `startedAt` as its next offset. -/
  | fsyncing (offset barrier covered startedAt : Nat)
  /-- The barrier succeeded and is to be published. -/
  | synced (offset barrier covered : Nat)
  /-- The barrier failed. -/
  | failed (offset barrier : Nat) (err : SyncError)
  /-- Holds the lock of the commit, to record the failure in the manager. -/
  | recording (offset barrier : Nat) (err : SyncError)
  /-- Holds the lock of the commit; the failure is recorded. -/
  | recorded (offset barrier : Nat) (err : SyncError)
  | returned (offset : Nat) (err : Option SyncError)
  deriving Repr, DecidableEq

/-- The barrier a call leads. -/
def SyncCall.leads : SyncCall → Option Nat
  | leading _ barrier | captured _ barrier _ | fsyncing _ barrier _ _ | synced _ barrier _
  | failed _ barrier _ | recording _ barrier _ | recorded _ barrier _ => some barrier
  | absent | looping _ | riding _ _ | returned _ _ => none

/-- An attempt to make a segment durable that has ended. -/
structure FsyncAttempt where
  barrier : Nat
  /-- The next offset of the segment when the attempt began. -/
  startedAt : Nat
  err : Option SyncError
  deriving Repr, DecidableEq

/-- A segment with its group commit, the manager it belongs to and the calls under way. -/
structure GroupCommit where
  /-- A barrier is in flight. -/
  syncing : Bool := false
  /-- The channel of the last barrier. -/
  waiters : Nat := 0
  through : Nat := 0
  /-- A call holds the lock of the commit. -/
  locked : Bool := false
  /-- The number of channels made. -/
  barriers : Nat := 0
  /-- The channels that are closed. -/
  closed : List Nat := []
  nextOffset : Nat
  segmentClosed : Bool := false
  managerLocked : Bool := false
  syncErr : Option SyncError := none
  calls : Nat → SyncCall := fun _ => .absent
  /-- The attempts that have ended. -/
  attempts : List FsyncAttempt := []
  /-- Who has parked on which barrier. -/
  rides : List (Nat × Nat) := []
  /-- The failures that have been written to `syncErr`, with their barriers. -/
  failures : List (Nat × SyncError) := []

/-- Something that happens. -/
inductive CommitAction where
  /-- A call begins in an unused slot. -/
  | call (slot offset : Nat)
  /-- The call in a slot takes its next step. `err` is the answer of the device. -/
  | advance (slot : Nat) (err : Option SyncError)
  | append (count : Nat)
  | closeSegment
  | lockManager
  /-- What a holder of the manager's lock makes of `syncErr`: `Sync` and the retry in
  `appendLocked`. -/
  | writeSyncErr (err : Option SyncError)
  | unlockManager
  deriving Repr, DecidableEq

namespace GroupCommit

variable (s : GroupCommit)

/-- A call has moved on. -/
def goto (slot : Nat) (call : SyncCall) : GroupCommit :=
  { s with calls := Function.update s.calls slot call }

/-- The next step of the call in a slot. A step that has to wait does nothing. -/
def advance (slot : Nat) (err : Option SyncError) : GroupCommit :=
  match s.calls slot with
  | .absent | .returned _ _ => s
  | .looping offset =>
    if s.locked then s
    else if offset ≤ s.through then s.goto slot (.returned offset none)
    else if s.syncing then
      { s.goto slot (.riding offset s.waiters) with rides := s.rides ++ [(slot, s.waiters)] }
    else
      { s.goto slot (.leading offset s.barriers) with
        syncing := true, waiters := s.barriers, barriers := s.barriers + 1 }
  | .riding offset barrier =>
    if barrier ∈ s.closed then s.goto slot (.looping offset) else s
  | .leading offset barrier =>
    if s.segmentClosed then
      { s.goto slot (.failed offset barrier .segmentClosed) with
        attempts := s.attempts ++ [⟨barrier, s.nextOffset, some .segmentClosed⟩] }
    else s.goto slot (.captured offset barrier s.nextOffset)
  | .captured offset barrier covered => s.goto slot (.fsyncing offset barrier covered s.nextOffset)
  | .fsyncing offset barrier covered startedAt =>
    { s.goto slot (match err with
        | none => .synced offset barrier covered
        | some err => .failed offset barrier err) with
      attempts := s.attempts ++ [⟨barrier, startedAt, err⟩] }
  | .synced offset barrier covered =>
    if s.locked then s
    else
      { s.goto slot (.looping offset) with
        through := max s.through covered, syncing := false, closed := s.closed ++ [barrier] }
  | .failed offset barrier err =>
    if s.locked then s else { s.goto slot (.recording offset barrier err) with locked := true }
  | .recording offset barrier err =>
    -- `recordSyncFailure`
    if s.managerLocked then s
    else
      { s.goto slot (.recorded offset barrier err) with
        syncErr := some err, failures := s.failures ++ [(barrier, err)] }
  | .recorded offset barrier err =>
    { s.goto slot (.returned offset (some err)) with
      syncing := false, closed := s.closed ++ [barrier], locked := false }

/-- What happens. An action that is not possible changes nothing. -/
def step : CommitAction → GroupCommit
  | .call slot offset =>
    match s.calls slot with
    | .absent | .returned _ _ => s.goto slot (.looping offset)
    | _ => s
  | .advance slot err => s.advance slot err
  | .append count => if s.segmentClosed then s else { s with nextOffset := s.nextOffset + count }
  | .closeSegment => { s with segmentClosed := true }
  | .lockManager => { s with managerLocked := true }
  | .writeSyncErr err => if s.managerLocked then { s with syncErr := err } else s
  | .unlockManager => { s with managerLocked := false }

/-- What a sequence of actions leads to. -/
abbrev run (actions : List CommitAction) : GroupCommit :=
  Transition.run step s actions

end GroupCommit

/-! ### What a barrier guarantees -/

/-- An offset is on disk: an fsync that began when everything before it was written has succeeded. -/
def OnDisk (attempts : List FsyncAttempt) (offset : Nat) : Prop :=
  offset = 0 ∨ ∃ a ∈ attempts, a.err = none ∧ offset ≤ a.startedAt

/-- A barrier failed. -/
def BarrierFailed (attempts : List FsyncAttempt) (barrier : Nat) (err : SyncError) : Prop :=
  ⟨barrier, err⟩ ∈ attempts.filterMap fun a => a.err.map (a.barrier, ·)

section

variable {attempts : List FsyncAttempt}

lemma OnDisk.append {offset : Nat} (h : OnDisk attempts offset) (a : FsyncAttempt) :
    OnDisk (attempts ++ [a]) offset := by
  rcases h with h | ⟨b, hb, hok⟩
  · exact .inl h
  · exact .inr ⟨b, mem_append_left _ hb, hok⟩

lemma OnDisk.mono {m n : Nat} (h : OnDisk attempts n) (hle : m ≤ n) : OnDisk attempts m := by
  rcases h with h | ⟨b, hb, hok, hn⟩
  · exact .inl (by omega)
  · exact .inr ⟨b, hb, hok, Nat.le_trans hle hn⟩

lemma barrierFailed_append {a : FsyncAttempt} {b : Nat} {e : SyncError} :
    BarrierFailed (attempts ++ [a]) b e ↔
      BarrierFailed attempts b e ∨ a.barrier = b ∧ a.err = some e := by
  rcases a with ⟨barrier, startedAt, _ | err⟩
  · simp [BarrierFailed]
  · simp [BarrierFailed, eq_comm]

lemma BarrierFailed.exists {b : Nat} {e : SyncError} (h : BarrierFailed attempts b e) :
    ∃ a ∈ attempts, a.barrier = b := by
  obtain ⟨a, ha, heq⟩ := mem_filterMap.1 h
  obtain ⟨err, -, heq⟩ := Option.map_eq_some_iff.1 heq
  exact ⟨a, ha, (Prod.mk.inj heq).1⟩

end

namespace GroupCommit

variable (s : GroupCommit)

/-- What holds of a call in each of its phases. -/
def Fits : SyncCall → Prop
  | .absent | .looping _ => True
  | .riding _ b => b ∈ s.closed ∨ s.syncing = true ∧ b = s.waiters
  | .leading _ b => ∀ a ∈ s.attempts, a.barrier ≠ b
  | .captured _ b covered => (∀ a ∈ s.attempts, a.barrier ≠ b) ∧ covered ≤ s.nextOffset
  | .fsyncing _ b covered startedAt => (∀ a ∈ s.attempts, a.barrier ≠ b) ∧ covered ≤ startedAt
  | .synced _ b covered => OnDisk s.attempts covered ∧ ∀ e, ¬ BarrierFailed s.attempts b e
  | .failed _ b err => ∀ e, BarrierFailed s.attempts b e → e = err
  | .recording _ b err => s.locked = true ∧ ∀ e, BarrierFailed s.attempts b e → e = err
  | .recorded _ b err => s.locked = true ∧ (b, err) ∈ s.failures ∧
      ∀ e, BarrierFailed s.attempts b e → e = err
  | .returned offset none => OnDisk s.attempts offset
  | .returned _ (some err) => ∃ b, (b, err) ∈ s.failures

/-- What holds in every state. -/
structure Invariant : Prop where
  fits : ∀ i, s.Fits (s.calls i)
  /-- Who leads a barrier leads the one in flight, and nobody else does. -/
  inFlight : ∀ i b, (s.calls i).leads = some b → s.syncing = true ∧ b = s.waiters
  leader : s.syncing = true → ∃ i, (s.calls i).leads = some s.waiters
  unique : ∀ i j b, (s.calls i).leads = some b → (s.calls j).leads = some b → i = j
  rides : ∀ i b, (i, b) ∈ s.rides → b ∈ s.closed ∨ ∃ o, s.calls i = .riding o b
  waiters_lt : s.syncing = true → s.waiters < s.barriers
  attempts_lt : ∀ a ∈ s.attempts, a.barrier < s.barriers
  closed_lt : ∀ b ∈ s.closed, b < s.barriers
  open_waiters : s.syncing = true → s.waiters ∉ s.closed
  /-- The failure of a barrier is recorded before its channel is closed. -/
  recorded : ∀ b e, b ∈ s.closed → BarrierFailed s.attempts b e → (b, e) ∈ s.failures
  through : OnDisk s.attempts s.through

variable {s}

lemma invariant_fresh (nextOffset : Nat) : Invariant { nextOffset } where
  fits _ := trivial
  inFlight _ _ h := nomatch h
  leader h := nomatch h
  unique _ _ _ h := nomatch h
  rides _ _ h := nomatch h
  waiters_lt h := nomatch h
  attempts_lt _ h := nomatch h
  closed_lt _ h := nomatch h
  open_waiters h := nomatch h
  recorded _ _ h := nomatch h
  through := .inl rfl

/-- A channel that somebody may be parked on. -/
def Parks (s : GroupCommit) (b : Nat) : Prop := b ∈ s.closed ∨ s.syncing = true ∧ b = s.waiters

variable {call : SyncCall}

/-- A step of a leader leaves the calls that do not lead in their phases. -/
lemma Fits.of_leads_eq_none {s s' : GroupCommit} (hleads : call.leads = none)
    (hparks : ∀ b, s.Parks b → s'.Parks b) (hdisk : ∀ o, OnDisk s.attempts o → OnDisk s'.attempts o)
    (hfailures : ∀ f ∈ s.failures, f ∈ s'.failures) (h : s.Fits call) : s'.Fits call := by
  cases call with
  | absent | looping => trivial
  | riding o b => exact hparks b h
  | returned o err =>
    cases err with
    | none => exact hdisk o h
    | some err => exact h.imp fun b hb => hfailures _ hb
  | leading | captured | fsyncing | synced | failed | recording | recorded => nomatch hleads

/-- A step that makes no attempt and leaves the locks alone leaves the other calls in their
phases. -/
lemma Fits.of_eq {s s' : GroupCommit} (hattempts : s'.attempts = s.attempts)
    (hnext : s.nextOffset ≤ s'.nextOffset) (hlocked : s'.locked = s.locked)
    (hfailures : s'.failures = s.failures) (hparks : ∀ b, s.Parks b → s'.Parks b)
    (h : s.Fits call) : s'.Fits call := by
  cases call with
  | riding o b => exact hparks b h
  | captured o b covered => exact ⟨hattempts ▸ h.1, Nat.le_trans h.2 hnext⟩
  | returned o err =>
    cases err with
    | none => simpa only [Fits, hattempts] using h
    | some => simpa only [Fits, hfailures] using h
  | absent | looping => trivial
  | leading | fsyncing | synced | failed | recording | recorded =>
    simpa only [Fits, hattempts, hlocked, hfailures] using h

section

variable {s' : GroupCommit} {slot : Nat} {call : SyncCall}

/-- Calls that do not lead move on among themselves. -/
lemma Invariant.of_follower (h : s.Invariant) (hslot : (s.calls slot).leads = none)
    (hcalls : s'.calls = update s.calls slot call) (hcall : call.leads = none)
    (hfits : s'.Fits call)
    (hrides : ∀ i b, (i, b) ∈ s'.rides → b ∈ s'.closed ∨ ∃ o, s'.calls i = .riding o b)
    (hsyncing : s'.syncing = s.syncing) (hwaiters : s'.waiters = s.waiters)
    (hbarriers : s'.barriers = s.barriers) (hattempts : s'.attempts = s.attempts)
    (hclosed : s'.closed = s.closed) (hfailures : s'.failures = s.failures)
    (hlocked : s'.locked = s.locked) (hthrough : s'.through = s.through)
    (hnext : s'.nextOffset = s.nextOffset) : s'.Invariant := by
  have hleads (i : Nat) : (s'.calls i).leads = (s.calls i).leads := by
    rw [hcalls, update_apply]
    split
    · subst i
      rw [hcall, hslot]
    · rfl
  refine ⟨fun i => ?_, ?_, ?_, ?_, hrides, ?_, ?_, ?_, ?_, ?_, ?_⟩
  · by_cases hi : i = slot
    · simpa [hcalls, hi] using hfits
    have hsame : s'.calls i = s.calls i := by simp [hcalls, hi]
    rw [hsame]
    exact (h.fits i).of_eq hattempts (Nat.le_of_eq hnext.symm) hlocked hfailures fun b hb => by
      rwa [Parks, hclosed, hsyncing, hwaiters]
  · simpa only [hleads, hsyncing, hwaiters] using h.inFlight
  · simpa only [hleads, hsyncing, hwaiters] using h.leader
  · simpa only [hleads] using h.unique
  · simpa only [hsyncing, hwaiters, hbarriers] using h.waiters_lt
  · simpa only [hattempts, hbarriers] using h.attempts_lt
  · simpa only [hclosed, hbarriers] using h.closed_lt
  · simpa only [hclosed, hsyncing, hwaiters] using h.open_waiters
  · simpa only [hclosed, hattempts, hfailures] using h.recorded
  · simpa only [hattempts, hthrough] using h.through

section

variable (h : s.Invariant) {b : Nat} (hslot : (s.calls slot).leads = some b)
include h hslot

/-- The other calls do not lead while one does. -/
lemma Invariant.others {i : Nat} (hi : i ≠ slot) : (s.calls i).leads = none := by
  by_contra hne
  obtain ⟨b', hb'⟩ := Option.ne_none_iff_exists'.1 hne
  have heq : b' = b := (h.inFlight i b' hb').2.trans (h.inFlight slot b hslot).2.symm
  exact hi (h.unique i slot b (heq ▸ hb') hslot)

/-- The leader goes on with its barrier. -/
lemma Invariant.of_leader (hcalls : s'.calls = update s.calls slot call)
    (hcall : call.leads = some b) (hfits : s'.Fits call)
    (hattempts : ∀ a ∈ s'.attempts, a ∈ s.attempts ∨ a.barrier = b)
    (hdisk : ∀ o, OnDisk s.attempts o → OnDisk s'.attempts o)
    (hfailed : ∀ b' e, b' ≠ b → BarrierFailed s'.attempts b' e → BarrierFailed s.attempts b' e)
    (hfailures : ∀ f ∈ s.failures, f ∈ s'.failures) (hsyncing : s'.syncing = s.syncing)
    (hwaiters : s'.waiters = s.waiters) (hbarriers : s'.barriers = s.barriers)
    (hclosed : s'.closed = s.closed) (hrides : s'.rides = s.rides)
    (hthrough : s'.through = s.through) : s'.Invariant := by
  obtain ⟨hin, rfl⟩ := h.inFlight slot b hslot
  have hleads (i : Nat) : (s'.calls i).leads = (s.calls i).leads := by
    rw [hcalls, update_apply]
    split
    · subst i
      rw [hcall, hslot]
    · rfl
  have hother {i : Nat} (hi : i ≠ slot) : s'.calls i = s.calls i := by simp [hcalls, hi]
  refine ⟨fun i => ?_, ?_, ?_, ?_, fun i b' hride => ?_, ?_, fun a ha => ?_, ?_, ?_,
    fun b' e hb' hfail => ?_, ?_⟩
  · by_cases hi : i = slot
    · simpa [hcalls, hi] using hfits
    · rw [hother hi]
      exact (h.fits i).of_leads_eq_none (h.others hslot hi)
        (fun b' hb' => by rwa [Parks, hclosed, hsyncing, hwaiters]) hdisk hfailures
  · simpa only [hleads, hsyncing, hwaiters] using h.inFlight
  · simpa only [hleads, hsyncing, hwaiters] using h.leader
  · simpa only [hleads] using h.unique
  · rw [hrides] at hride
    rw [hclosed]
    refine (h.rides i b' hride).imp_right fun ⟨o, ho⟩ => ⟨o, ?_⟩
    rwa [hother]
    rintro rfl
    rw [ho] at hslot
    exact nomatch hslot
  · simpa only [hsyncing, hwaiters, hbarriers] using h.waiters_lt
  · rw [hbarriers]
    rcases hattempts a ha with ha | ha
    · exact h.attempts_lt a ha
    · exact ha ▸ h.waiters_lt hin
  · simpa only [hclosed, hbarriers] using h.closed_lt
  · simpa only [hclosed, hsyncing, hwaiters] using h.open_waiters
  · rw [hclosed] at hb'
    have hne : b' ≠ s.waiters := fun heq => h.open_waiters hin (heq ▸ hb')
    exact hfailures _ (h.recorded b' e hb' (hfailed b' e hne hfail))
  · rw [hthrough]
    exact hdisk _ h.through

/-- The leader publishes its barrier and closes the channel. -/
lemma Invariant.of_publish (hcalls : s'.calls = update s.calls slot call)
    (hcall : call.leads = none) (hfits : s'.Fits call)
    (hrecorded : ∀ e, BarrierFailed s.attempts b e → (b, e) ∈ s.failures)
    (hthrough : OnDisk s.attempts s'.through) (hsyncing : s'.syncing = false)
    (hbarriers : s'.barriers = s.barriers) (hattempts : s'.attempts = s.attempts)
    (hclosed : s'.closed = s.closed ++ [b]) (hfailures : s'.failures = s.failures)
    (hrides : s'.rides = s.rides) : s'.Invariant := by
  obtain ⟨hin, rfl⟩ := h.inFlight slot b hslot
  have hleads (i : Nat) : (s'.calls i).leads = none := by
    rw [hcalls, update_apply]
    split
    · exact hcall
    · exact h.others hslot ‹_›
  have hother {i : Nat} (hi : i ≠ slot) : s'.calls i = s.calls i := by simp [hcalls, hi]
  have hmem {b' : Nat} : b' ∈ s'.closed ↔ b' ∈ s.closed ∨ b' = s.waiters := by simp [hclosed]
  refine ⟨fun i => ?_, fun i b' hb' => ?_, fun hs => ?_, fun i j b' hb' => ?_,
    fun i b' hride => ?_, fun hs => ?_, ?_, fun b' hb' => ?_, fun hs => ?_,
    fun b' e hb' hfail => ?_, ?_⟩
  · by_cases hi : i = slot
    · simpa [hcalls, hi] using hfits
    rw [hother hi]
    refine (h.fits i).of_leads_eq_none (h.others hslot hi) (fun b' hb' => ?_)
      (fun o ho => hattempts ▸ ho) fun f hf => hfailures ▸ hf
    exact .inl (hmem.2 (hb'.imp_right And.right))
  · exact nomatch (hleads i).symm.trans hb'
  · exact nomatch hsyncing.symm.trans hs
  · exact nomatch (hleads i).symm.trans hb'
  · rw [hrides] at hride
    rcases h.rides i b' hride with hb' | ⟨o, ho⟩
    · exact .inl (hmem.2 (.inl hb'))
    -- A call that is parked does not lead, so it is where it was.
    have hi : i ≠ slot := by
      rintro rfl
      rw [ho] at hslot
      exact nomatch hslot
    exact .inr ⟨o, (hother hi).trans ho⟩
  · exact nomatch hsyncing.symm.trans hs
  · simpa only [hattempts, hbarriers] using h.attempts_lt
  · rw [hbarriers]
    rcases hmem.1 hb' with hb' | rfl
    · exact h.closed_lt b' hb'
    · exact h.waiters_lt hin
  · exact nomatch hsyncing.symm.trans hs
  · rw [hattempts] at hfail
    rw [hfailures]
    rcases hmem.1 hb' with hb' | rfl
    · exact h.recorded b' e hb' hfail
    · exact hrecorded e hfail
  · rwa [hattempts]

end

end

/-- Becoming the leader of a new barrier. -/
lemma Invariant.elect (h : s.Invariant) {slot offset : Nat}
    (hcall : s.calls slot = .looping offset) (hsyncing : s.syncing = false) :
    Invariant { s.goto slot (.leading offset s.barriers) with
      syncing := true, waiters := s.barriers, barriers := s.barriers + 1 } := by
  -- Nobody leads a barrier, and nobody is parked but on a closed channel.
  have hnone (i : Nat) : (s.calls i).leads = none := by
    by_contra hne
    obtain ⟨b, hb⟩ := Option.ne_none_iff_exists'.1 hne
    exact nomatch hsyncing.symm.trans (h.inFlight i b hb).1
  have hleads (i : Nat) {b : Nat} : ((update s.calls slot (.leading offset s.barriers)) i).leads
      = some b ↔ i = slot ∧ s.barriers = b := by
    by_cases hi : i = slot
    · simp [hi, SyncCall.leads]
    · simp [hi, hnone i]
  refine ⟨fun i => ?_, fun i b hb => ?_, fun _ => ⟨slot, (hleads slot).2 ⟨rfl, rfl⟩⟩,
    fun i j b hi hj => ?_, fun i b hride => ?_, fun _ => Nat.lt_succ_self _, fun a ha => ?_,
    fun b hb => ?_, fun _ hb => ?_, h.recorded, h.through⟩
  · by_cases hi : i = slot
    · subst hi
      rw [show (goto s i (.leading offset s.barriers)).calls i = .leading offset s.barriers by
        simp [goto]]
      exact fun a ha => Nat.ne_of_lt (h.attempts_lt a ha)
    · rw [show (goto s slot (.leading offset s.barriers)).calls i = s.calls i by simp [goto, hi]]
      refine Fits.of_leads_eq_none (s := s) (hnone i) (fun b hb => ?_) (fun o ho => ho)
        (fun f hf => hf) (h.fits i)
      exact .inl (hb.resolve_right fun hb => nomatch hsyncing.symm.trans hb.1)
  · exact ⟨rfl, ((hleads i).1 hb).2.symm⟩
  · exact ((hleads i).1 hi).1.trans ((hleads j).1 hj).1.symm
  · refine (h.rides i b hride).imp_right fun ⟨o, ho⟩ => ⟨o, ?_⟩
    have hi : i ≠ slot := by
      rintro rfl
      exact nomatch hcall.symm.trans ho
    simpa [goto, hi] using ho
  · exact Nat.lt_succ_of_lt (h.attempts_lt a ha)
  · exact Nat.lt_succ_of_lt (h.closed_lt b hb)
  · exact Nat.lt_irrefl _ (h.closed_lt _ hb)

/-- Who has parked is parked still or may go on, when a call that waits for nothing moves. -/
lemma Invariant.rides_goto (h : s.Invariant) {slot : Nat}
    (hslot : ∀ o b, s.calls slot = .riding o b → b ∈ s.closed) {i b : Nat} (hride : (i, b) ∈ s.rides) :
    b ∈ s.closed ∨ ∃ o, (s.goto slot call).calls i = .riding o b := by
  rcases h.rides i b hride with hb | ⟨o, ho⟩
  · exact .inl hb
  · by_cases hi : i = slot
    · exact .inl (hslot o b (hi ▸ ho))
    · exact .inr ⟨o, by simpa [goto, hi] using ho⟩

section

variable {attempts : List FsyncAttempt} {a : FsyncAttempt} {e : SyncError}

/-- The attempts of other barriers are what they were. -/
lemma failed_of_append {b : Nat} (hb : b ≠ a.barrier) (h : BarrierFailed (attempts ++ [a]) b e) :
    BarrierFailed attempts b e :=
  (barrierFailed_append.1 h).resolve_right fun heq => hb heq.1.symm

/-- A barrier that has not been tried fails with its attempt only. -/
lemma eq_of_failed_append (hnone : ∀ a' ∈ attempts, a'.barrier ≠ a.barrier)
    (h : BarrierFailed (attempts ++ [a]) a.barrier e) : a.err = some e := by
  rcases barrierFailed_append.1 h with h | h
  · obtain ⟨a', ha', heq⟩ := h.exists
    exact absurd heq (hnone a' ha')
  · exact h.2

end

/-- An attempt of the leader ends. -/
lemma Invariant.attempt (h : s.Invariant) {slot : Nat} {a : FsyncAttempt}
    (hslot : (s.calls slot).leads = some a.barrier) (hcall : call.leads = some a.barrier)
    (hfits : Fits { s.goto slot call with attempts := s.attempts ++ [a] } call) :
    Invariant { s.goto slot call with attempts := s.attempts ++ [a] } := by
  refine h.of_leader hslot rfl hcall hfits (fun a' ha' => ?_) (fun o ho => ho.append a)
    (fun b e hb hfail => failed_of_append hb hfail) (fun f hf => hf) rfl rfl rfl rfl rfl rfl
  rcases mem_append.1 ha' with ha' | ha'
  · exact .inl ha'
  · exact .inr (mem_singleton.1 ha' ▸ rfl)

/-- The invariant is kept by every step of a call. -/
lemma Invariant.advance (h : s.Invariant) (slot : Nat) (err : Option SyncError) :
    (s.advance slot err).Invariant := by
  unfold GroupCommit.advance
  have hfits := h.fits slot
  generalize hcall : s.calls slot = phase at hfits ⊢
  have hleads {b : Option Nat} (hb : phase.leads = b) : (s.calls slot).leads = b := by
    rw [hcall]
    exact hb
  cases phase with
  | absent | returned => exact h
  | looping offset =>
    have hidle : ∀ o b, s.calls slot = .riding o b → b ∈ s.closed := by simp [hcall]
    dsimp only
    split_ifs with hlocked hthrough hsyncing
    · exact h
    · exact h.of_follower (hleads rfl) rfl rfl (h.through.mono hthrough)
        (fun i b hride => h.rides_goto hidle hride) rfl rfl rfl rfl rfl rfl rfl rfl rfl
    · refine h.of_follower (hleads rfl) rfl rfl (.inr ⟨hsyncing, rfl⟩) (fun i b hride => ?_)
        rfl rfl rfl rfl rfl rfl rfl rfl rfl
      rcases mem_append.1 hride with hride | hride
      · exact h.rides_goto hidle hride
      · obtain ⟨rfl, rfl⟩ := Prod.mk.inj (mem_singleton.1 hride)
        exact .inr ⟨offset, by simp [goto]⟩
    · exact h.elect hcall (by simpa using hsyncing)
  | riding offset barrier =>
    dsimp only
    split_ifs with hclosed
    · have hwoken : ∀ o b, s.calls slot = .riding o b → b ∈ s.closed := by
        intro o b ho
        cases hcall.symm.trans ho
        exact hclosed
      exact h.of_follower (hleads rfl) rfl rfl trivial (fun i b hride => h.rides_goto hwoken hride)
        rfl rfl rfl rfl rfl rfl rfl rfl rfl
    · exact h
  | leading offset barrier =>
    have hfits : ∀ a ∈ s.attempts, a.barrier ≠ barrier := hfits
    dsimp only
    split_ifs with hclosed
    · refine h.attempt (hleads rfl) rfl fun e hfail => ?_
      exact (Option.some.inj (eq_of_failed_append hfits hfail)).symm
    · exact h.of_leader (hleads rfl) rfl rfl ⟨hfits, Nat.le_refl _⟩ (fun a ha => .inl ha)
        (fun o ho => ho) (fun b e _ hfail => hfail) (fun f hf => hf) rfl rfl rfl rfl rfl rfl
  | captured offset barrier covered =>
    exact h.of_leader (hleads rfl) rfl rfl hfits (fun a ha => .inl ha) (fun o ho => ho)
      (fun b e _ hfail => hfail) (fun f hf => hf) rfl rfl rfl rfl rfl rfl
  | fsyncing offset barrier covered startedAt =>
    cases err with
    | none =>
      refine h.attempt (hleads rfl) rfl ⟨.inr ⟨_, mem_append_right _ (mem_singleton_self _), rfl,
        hfits.2⟩, fun e hfail => ?_⟩
      exact nomatch eq_of_failed_append hfits.1 hfail
    | some err =>
      refine h.attempt (hleads rfl) rfl fun e hfail => ?_
      exact (Option.some.inj (eq_of_failed_append hfits.1 hfail)).symm
  | synced offset barrier covered =>
    dsimp only
    split_ifs with hlocked
    · exact h
    refine h.of_publish (hleads rfl) rfl rfl trivial (fun e hfail => absurd hfail (hfits.2 e)) ?_
      rfl rfl rfl rfl rfl rfl
    rcases Nat.le_total s.through covered with hle | hle
    · exact (Nat.max_eq_right hle).symm ▸ hfits.1
    · exact (Nat.max_eq_left hle).symm ▸ h.through
  | failed offset barrier err =>
    dsimp only
    split_ifs with hlocked
    · exact h
    · exact h.of_leader (hleads rfl) rfl rfl ⟨rfl, hfits⟩ (fun a ha => .inl ha) (fun o ho => ho)
        (fun b e _ hfail => hfail) (fun f hf => hf) rfl rfl rfl rfl rfl rfl
  | recording offset barrier err =>
    dsimp only
    split_ifs with hlocked
    · exact h
    exact h.of_leader (hleads rfl) rfl rfl
      ⟨hfits.1, mem_append_right _ (mem_singleton_self _), hfits.2⟩
      (fun a ha => .inl ha) (fun o ho => ho) (fun b e _ hfail => hfail)
      (fun f hf => mem_append_left _ hf) rfl rfl rfl rfl rfl rfl
  | recorded offset barrier err =>
    refine h.of_publish (hleads rfl) rfl rfl ⟨barrier, hfits.2.1⟩ (fun e hfail => ?_) h.through
      rfl rfl rfl rfl rfl rfl
    exact hfits.2.2 e hfail ▸ hfits.2.1

/-- What does not concern the calls keeps the invariant. -/
lemma Invariant.of_env {s' : GroupCommit} (h : s.Invariant) (hcalls : s'.calls = s.calls)
    (hnext : s.nextOffset ≤ s'.nextOffset)
    (hsame : (s'.syncing, s'.waiters, s'.through, s'.locked, s'.barriers, s'.closed, s'.attempts,
      s'.rides, s'.failures) = (s.syncing, s.waiters, s.through, s.locked, s.barriers, s.closed,
      s.attempts, s.rides, s.failures)) : s'.Invariant := by
  simp only [Prod.mk.injEq] at hsame
  obtain ⟨h1, h2, h3, h4, h5, h6, h7, h8, h9⟩ := hsame
  refine ⟨fun i => ?_, ?_, ?_, ?_, ?_, ?_, ?_, ?_, ?_, ?_, ?_⟩
  · rw [hcalls]
    exact (h.fits i).of_eq h7 hnext h4 h9 fun b hb => by rwa [Parks, h6, h1, h2]
  · simpa only [hcalls, h1, h2] using h.inFlight
  · simpa only [hcalls, h1, h2] using h.leader
  · simpa only [hcalls] using h.unique
  · simpa only [hcalls, h6, h8] using h.rides
  · simpa only [h1, h2, h5] using h.waiters_lt
  · simpa only [h5, h7] using h.attempts_lt
  · simpa only [h5, h6] using h.closed_lt
  · simpa only [h1, h2, h6] using h.open_waiters
  · simpa only [h6, h7, h9] using h.recorded
  · simpa only [h3, h7] using h.through

lemma Invariant.step (h : s.Invariant) (a : CommitAction) : (s.step a).Invariant := by
  cases a with
  | call slot offset =>
    simp only [GroupCommit.step]
    have hidle (hnone : (s.calls slot).leads = none)
        (hparked : ∀ o b, s.calls slot ≠ .riding o b) :
        (s.goto slot (.looping offset)).Invariant :=
      h.of_follower hnone rfl rfl trivial
        (fun i b hride => h.rides_goto (fun o b ho => absurd ho (hparked o b)) hride)
        rfl rfl rfl rfl rfl rfl rfl rfl rfl
    split
    case h_3 => exact h
    all_goals
      rename_i hcall
      exact hidle (by rw [hcall]; rfl) (by simp [hcall])
  | advance slot err => exact h.advance slot err
  | append count =>
    simp only [GroupCommit.step]
    split_ifs
    · exact h
    · exact h.of_env rfl (Nat.le_add_right _ _) rfl
  | closeSegment | lockManager | unlockManager => exact h.of_env rfl (Nat.le_refl _) rfl
  | writeSyncErr err =>
    simp only [GroupCommit.step]
    split_ifs
    · exact h.of_env rfl (Nat.le_refl _) rfl
    · exact h

/-- The invariant holds after every sequence of actions. -/
lemma invariant_run (nextOffset : Nat) (actions : List CommitAction) :
    (run { nextOffset } actions).Invariant :=
  Transition.invariant_run (P := fun _ _ => True) (fun _ a h _ => h.step a)
    (invariant_fresh nextOffset) (Transition.along_of_forall fun _ _ _ => trivial)

/-- The step that publishes a barrier is the only one that raises `through`. -/
lemma synced_of_through_lt {a : CommitAction} (h : s.through < (s.step a).through) :
    ∃ slot err, a = .advance slot err ∧
      ∃ offset barrier, s.calls slot = .synced offset barrier (s.step a).through := by
  cases a with
  | advance slot err =>
    refine ⟨slot, err, rfl, ?_⟩
    simp only [step, advance] at h ⊢
    split at h <;> try exact absurd h (Nat.lt_irrefl _)
    case h_8 offset barrier covered hcall =>
      split_ifs at h with hlocked
      · exact absurd h (Nat.lt_irrefl _)
      refine ⟨offset, barrier, ?_⟩
      have hmax : max s.through covered = covered := by
        have h : s.through < max s.through covered := h
        omega
      simp [hcall, hlocked, hmax]
    all_goals split_ifs at h <;> exact absurd h (Nat.lt_irrefl _)
  | call slot offset =>
    simp only [step] at h
    split at h <;> exact absurd h (Nat.lt_irrefl _)
  | append count | writeSyncErr err =>
    simp only [step] at h
    split_ifs at h <;> exact absurd h (Nat.lt_irrefl _)
  | closeSegment | lockManager | unlockManager => exact absurd h (Nat.lt_irrefl _)

/-- A failure that is recorded stands in `syncErr` at that moment. -/
lemma syncErr_of_failures {a : CommitAction} {b : Nat} {e : SyncError}
    (h : (b, e) ∈ (s.step a).failures) (hnew : (b, e) ∉ s.failures) :
    (s.step a).syncErr = some e := by
  cases a with
  | advance slot err =>
    simp only [step, advance] at h ⊢
    split at h <;> try exact absurd h hnew
    case h_10 offset barrier err hcall =>
      split_ifs at h ⊢ with hlocked
      · exact absurd h hnew
      · have hmem := (mem_append.1 h).resolve_left hnew
        rw [(Prod.mk.inj (mem_singleton.1 hmem)).2]
    all_goals split_ifs at h <;> exact absurd h hnew
  | call slot offset =>
    simp only [step] at h
    split at h <;> exact absurd h hnew
  | append count | writeSyncErr err =>
    simp only [step] at h
    split_ifs at h <;> exact absurd h hnew
  | closeSegment | lockManager | unlockManager => exact absurd h hnew

/-- Group commit does not acknowledge early. In every state that any interleaving leads to:

* a call that has returned `nil` asked for nothing, or an fsync that began when all it asked for was
  written has succeeded;
* only a barrier that has succeeded raises `through`;
* one call at most is between taking the lead and publishing;
* a call that is parked on a barrier that nobody leads any more goes on with its next step;
* when a call leaves a barrier that failed, by being woken or by returning the error, the failure has
  been recorded, and recording it writes it to `syncErr`. -/
theorem commits (nextOffset : Nat) (actions : List CommitAction) :
    let s := run { nextOffset } actions
    (∀ i o, s.calls i = .returned o none →
      o = 0 ∨ ∃ a ∈ s.attempts, a.err = none ∧ o ≤ a.startedAt) ∧
    (∀ a, s.through < (s.step a).through → ∃ slot err offset barrier, a = .advance slot err ∧
      s.calls slot = .synced offset barrier (s.step a).through ∧
      ∀ e, ¬ BarrierFailed s.attempts barrier e) ∧
    (∀ i j, (s.calls i).leads.isSome → (s.calls j).leads.isSome → i = j) ∧
    (∀ i o b, s.calls i = .riding o b → (∀ j, (s.calls j).leads ≠ some b) →
      ∀ err, (s.step (.advance i err)).calls i = .looping o) ∧
    (∀ i b e, (i, b) ∈ s.rides → BarrierFailed s.attempts b e → (∀ o, s.calls i ≠ .riding o b) →
      (b, e) ∈ s.failures) ∧
    (∀ i o e, s.calls i = .returned o (some e) → ∃ b, (b, e) ∈ s.failures) ∧
    ∀ a b e, (b, e) ∈ (s.step a).failures → (b, e) ∉ s.failures → (s.step a).syncErr = some e := by
  intro s
  have h : s.Invariant := invariant_run nextOffset actions
  refine ⟨fun i o hreturned => ?_, fun a hlt => ?_, fun i j hi hj => ?_, fun i o b hriding hdone err => ?_,
    fun i b e hride hfailed hleft => ?_, fun i o e hreturned => ?_,
    fun a b e hmem hnew => syncErr_of_failures hmem hnew⟩
  · have hfits := h.fits i
    rwa [hreturned] at hfits
  · obtain ⟨slot, err, rfl, offset, barrier, hsynced⟩ := synced_of_through_lt hlt
    have hfits := h.fits slot
    rw [hsynced] at hfits
    exact ⟨slot, err, offset, barrier, rfl, hsynced, hfits.2⟩
  · obtain ⟨b, hb⟩ := Option.isSome_iff_exists.1 hi
    by_contra hne
    exact (Option.isSome_iff_ne_none.1 hj) (h.others hb (Ne.symm hne))
  · -- The barrier is not in flight, for then somebody would lead it.
    have hfits := h.fits i
    rw [hriding] at hfits
    have hclosed : b ∈ s.closed := hfits.resolve_right fun ⟨hsyncing, hb⟩ => by
      obtain ⟨j, hj⟩ := h.leader hsyncing
      exact hdone j (hb ▸ hj)
    simp [step, advance, hriding, hclosed, goto]
  · have hclosed := (h.rides i b hride).resolve_right fun ⟨o, ho⟩ => hleft o ho
    exact h.recorded b e hclosed hfailed
  · have hfits := h.fits i
    rwa [hreturned] at hfits

/-- Two calls for one segment share the barrier of the first. -/
private def sharedBarrier : List CommitAction :=
  [.append 2, .call 0 2, .call 1 1, .advance 0 none, .advance 1 none, .advance 0 none,
    .advance 0 none, .advance 0 none, .advance 0 none, .advance 1 none, .advance 1 none]

theorem commits_sharedBarrier :
    (run { nextOffset := 0 } sharedBarrier).calls 1 = .returned 1 none ∧
      (1 = 0 ∨ ∃ a ∈ (run { nextOffset := 0 } sharedBarrier).attempts, a.err = none ∧
        1 ≤ a.startedAt) :=
  have hreturned : (run { nextOffset := 0 } sharedBarrier).calls 1 = .returned 1 none := by decide
  ⟨hreturned, (commits 0 sharedBarrier).1 1 1 hreturned⟩

/-- A call that asks for offset `0` returns `nil` without any fsync. -/
theorem zero_without_fsync :
    (run { nextOffset := 0 } [.call 0 0, .advance 0 none]).calls 0 = .returned 0 none ∧
      (run { nextOffset := 0 } [.call 0 0, .advance 0 none]).attempts = [] := by
  decide

end GroupCommit

end FluxMQ
