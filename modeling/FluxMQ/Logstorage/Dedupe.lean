import FluxMQ.Library.Runs

/-!
# Appending once

`appendOnce` of `logstorage/dedupe.go`: an append under a key, which is written into a header of the
record, and for which an entry is kept in a database of its own. The entry is reserved before the append
and completed after it. A later call with the key looks at what the entry says of the log.

A call holds the lock of its queue from the first look at the entry to the last write of it, so that there
is one at a time; plain appends do not take the lock and come in between. Each access of a call to the
database or to the log is a step, which may fail, and between any two of them the process may crash. A
crash loses records at the end of the log that were not synced, and nothing of the database.

* `resolveDedupeEntry`, `findDedupeRecord`: what an entry says of the log.
* `OnceState.Invariant`: what is true of the records and the entry of one key.
* `OnceState.appended_once`: what follows for the records that calls have reported.

Of a record only the dedupe header is kept, and of the log what is behind the head, which is the beginning
as long as nothing is truncated.
-/

namespace FluxMQ.Logstorage

open Transition

/-- Whether the append of a key is known to have ended. -/
inductive DedupeEntryState where
  | pending
  | unconfirmed
  | confirmed
  deriving Repr, DecidableEq

/-- What the deduplication store has for a key. -/
structure DedupeEntry where
  offset : Nat
  state : DedupeEntryState
  deriving Repr, DecidableEq

/-- The records of a queue, by their dedupe header. -/
abbrev KeyedLog := List (Option String)

def dedupeRecoveryBatch : Nat := 256

/-- The loop of `findDedupeRecord`, for at most `fuel` batches. -/
def findDedupeFrom (log : KeyedLog) (dedupeKey : String) : (fuel start : Nat) → Option Nat
  | 0, _ => none
  | fuel + 1, start =>
    if start < log.length then
      let messages := (log.drop start).take dedupeRecoveryBatch
      match messages.findIdx? (· == some dedupeKey) with
      | some i => some (start + i)
      | none => findDedupeFrom log dedupeKey fuel (start + messages.length)
    else none

/-- `findDedupeRecord`. Plain appends during the scan are behind the tail it has read. -/
def findDedupeRecord (log : KeyedLog) (dedupeKey : String) (start : Nat) : Option Nat :=
  findDedupeFrom log dedupeKey (log.length - start) start

/-- `resolveDedupeEntry`: the entry of the record with the key, if there is one. -/
def resolveDedupeEntry (log : KeyedLog) (dedupeKey : String) (entry : DedupeEntry) :
    Option DedupeEntry :=
  match entry.state with
  | .pending =>
    (findDedupeRecord log dedupeKey entry.offset).map fun offset => { offset, state := .unconfirmed }
  | _ => if log[entry.offset]? = some (some dedupeKey) then some entry else none

/-! ### Calls -/

/-- What a call of `appendOnce` does next. -/
inductive OncePhase where
  | lookup
  | resolve (entry : DedupeEntry)
  /-- The record is there, and is yet to be synced. -/
  | syncQueue (offset : Nat)
  | confirm (offset : Nat)
  | removeStale
  | readTail
  | reserve (tail : Nat)
  | encode
  | append
  | barrier (offset : Nat)
  | putUnconfirmed (offset : Nat)
  | putConfirmed (offset : Nat)
  | removeReservation
  deriving Repr, DecidableEq

/-- A call that holds the lock of the queue. -/
structure OnceCall where
  dedupeKey : String
  /-- The append waits for a barrier: `AppendOnceAndSync`, or a store that syncs every write. -/
  sync : Bool
  phase : OncePhase
  deriving Repr, DecidableEq

/-- A queue with its entries, and the calls that have succeeded. -/
structure OnceState where
  log : KeyedLog := []
  /-- How many records are on disk. -/
  synced : Nat := 0
  index : String → Option DedupeEntry := fun _ => none
  call : Option OnceCall := none
  reported : List (String × Nat) := []

/-- What can happen next. -/
inductive OnceAction where
  /-- A plain append of a message with a transfer id, or none. -/
  | append (transferID : Option String)
  | sync
  | begin (dedupeKey : String) (sync : Bool)
  /-- The call in progress goes on, and what it does next succeeds or fails. -/
  | advance (ok : Bool)
  /-- All records up to a number are kept, and all that were synced. -/
  | crash (kept : Nat)
  deriving Repr, DecidableEq

namespace OnceState

/-- The call goes on to a phase. -/
def goOn (s : OnceState) (call : OnceCall) (phase : OncePhase) : OnceState :=
  { s with call := some { call with phase } }

/-- The call returns an error. -/
def fail (s : OnceState) : OnceState := { s with call := none }

/-- The call returns an offset. -/
def succeed (s : OnceState) (dedupeKey : String) (offset : Nat) : OnceState :=
  { s with call := none, reported := (dedupeKey, offset) :: s.reported }

def put (s : OnceState) (dedupeKey : String) (entry : DedupeEntry) : OnceState :=
  { s with index := Function.update s.index dedupeKey (some entry) }

def remove (s : OnceState) (dedupeKey : String) : OnceState :=
  { s with index := Function.update s.index dedupeKey none }

/-- The next step of `appendOnce`. -/
def advance (s : OnceState) (call : OnceCall) (ok : Bool) : OnceState :=
  match call.phase with
  | .lookup =>
    if ok then
      match s.index call.dedupeKey with
      | none => s.goOn call .readTail
      | some entry => s.goOn call (.resolve entry)
    else s.fail
  | .resolve entry =>
    if ok then
      match resolveDedupeEntry s.log call.dedupeKey entry with
      | none => s.goOn call .removeStale
      | some found =>
        if found.state = .confirmed then s.succeed call.dedupeKey found.offset
        else s.goOn call (.syncQueue found.offset)
    else s.fail
  | .syncQueue offset =>
    if ok then { s with synced := s.log.length }.goOn call (.confirm offset) else s.fail
  | .confirm offset =>
    if ok then (s.put call.dedupeKey ⟨offset, .confirmed⟩).succeed call.dedupeKey offset else s.fail
  | .removeStale => if ok then (s.remove call.dedupeKey).goOn call .readTail else s.fail
  | .readTail => if ok then s.goOn call (.reserve s.log.length) else s.fail
  | .reserve tail =>
    if ok then
      match s.index call.dedupeKey with
      | none => (s.put call.dedupeKey ⟨tail, .pending⟩).goOn call .encode
      | some _ => s.fail
    else s.fail
  | .encode => if ok then s.goOn call .append else s.goOn call .removeReservation
  | .append =>
    if ok then
      { s with log := s.log ++ [some call.dedupeKey] }.goOn call
        (if call.sync then .barrier s.log.length else .putConfirmed s.log.length)
    else s.goOn call .removeReservation
  | .barrier offset =>
    if ok then { s with synced := max s.synced (offset + 1) }.goOn call (.putConfirmed offset)
    else s.goOn call (.putUnconfirmed offset)
  | .putUnconfirmed offset => if ok then (s.put call.dedupeKey ⟨offset, .unconfirmed⟩).fail else s.fail
  | .putConfirmed offset =>
    if ok then (s.put call.dedupeKey ⟨offset, .confirmed⟩).succeed call.dedupeKey offset else s.fail
  | .removeReservation => if ok then (s.remove call.dedupeKey).fail else s.fail

/-- The state after an action. A call waits for the lock while another one holds it. -/
def step (s : OnceState) : OnceAction → OnceState
  | .append transferID => { s with log := s.log ++ [transferID] }
  | .sync => { s with synced := s.log.length }
  | .begin dedupeKey sync =>
    if dedupeKey ≠ "" ∧ s.call = none then { s with call := some ⟨dedupeKey, sync, .lookup⟩ } else s
  | .advance ok =>
    match s.call with
    | none => s
    | some call => s.advance call ok
  | .crash kept => { s with log := s.log.take (max kept s.synced), call := none }

end OnceState

/-! ### What an entry says of the log -/

/-- A record with the key stands at the offset. -/
def KeyedLog.HasAt (log : KeyedLog) (dedupeKey : String) (offset : Nat) : Prop :=
  log[offset]? = some (some dedupeKey)

/-- No record has the key. -/
def KeyedLog.Lacks (log : KeyedLog) (dedupeKey : String) : Prop :=
  ∀ offset, ¬ log.HasAt dedupeKey offset

section

variable {log : KeyedLog} {dedupeKey : String}

/-- The scan finds a record with the key from a position on, if there is one. -/
lemma findDedupeFrom_spec (log : KeyedLog) (dedupeKey : String) (fuel start : Nat) (hfuel : log.length - start ≤ fuel) :
    match findDedupeFrom log dedupeKey fuel start with
    | some offset => log.HasAt dedupeKey offset
    | none => ∀ offset, start ≤ offset → ¬ log.HasAt dedupeKey offset := by
  -- At the end of the log there is nothing left to find.
  have hend {start : Nat} (hge : ¬ start < log.length) (offset : Nat) (hle : start ≤ offset) :
      ¬ log.HasAt dedupeKey offset := by
    intro hhas
    have hlt : offset < log.length := (List.getElem?_eq_some_iff.mp hhas).1
    omega
  -- A batch shows the log from `start` on.
  have hat {start i : Nat} (hi : i < ((log.drop start).take dedupeRecoveryBatch).length) :
      ((log.drop start).take dedupeRecoveryBatch)[i]? = log[start + i]? := by
    rw [List.getElem?_take_of_lt (by grind), List.getElem?_drop]
  fun_induction findDedupeFrom log dedupeKey fuel start with
  | case1 start => exact hend (by omega)
  | case2 fuel start hlt messages i hfind =>
    obtain ⟨hi, hkey, -⟩ := List.findIdx?_eq_some_iff_getElem.mp hfind
    simp only [KeyedLog.HasAt]
    rw [← hat hi, List.getElem?_eq_getElem hi, eq_of_beq hkey]
  | case3 fuel start hlt messages hfind ih =>
    have hbatch : 0 < dedupeRecoveryBatch := by decide
    have hlength : messages.length = min dedupeRecoveryBatch (log.length - start) := by
      rw [List.length_take, List.length_drop]
    have hnext := ih (by omega)
    split
    · rename_i offset hoffset
      rwa [hoffset] at hnext
    rename_i hnone
    rw [hnone] at hnext
    intro offset hge hhas
    rcases Nat.lt_or_ge offset (start + messages.length) with hin | hout
    · -- The batch that was read does not have it.
      have hin' : offset - start < messages.length := by omega
      have hmem := hat hin'
      rw [Nat.add_sub_cancel' hge, hhas] at hmem
      have hne := List.findIdx?_eq_none_iff.mp hfind _ (List.mem_of_getElem? hmem)
      simp at hne
    · exact hnext offset hout hhas
  | case4 fuel start hge => exact hend hge

/-- What the entry of a key allows for its records. -/
def DedupeEntry.Covers (entry : DedupeEntry) (offset : Nat) : Prop :=
  match entry.state with
  | .pending => entry.offset ≤ offset
  | _ => entry.offset = offset

/-- An entry that covers the records of a key leads to one of them, if there is one. -/
lemma resolveDedupeEntry_spec {entry : DedupeEntry}
    (hcovers : ∀ offset, log.HasAt dedupeKey offset → entry.Covers offset) :
    match resolveDedupeEntry log dedupeKey entry with
    | some found => log.HasAt dedupeKey found.offset
    | none => log.Lacks dedupeKey := by
  obtain ⟨offset, state⟩ := entry
  cases state with
  | pending =>
    have hscan := findDedupeFrom_spec log dedupeKey (log.length - offset) offset (Nat.le_refl _)
    simp only [resolveDedupeEntry, findDedupeRecord]
    cases hfind : findDedupeFrom log dedupeKey (log.length - offset) offset with
    | some found =>
      rw [hfind] at hscan
      exact hscan
    | none =>
      rw [hfind] at hscan
      exact fun found hat => hscan found (hcovers found hat) hat
  | unconfirmed | confirmed =>
    by_cases hhas : log[offset]? = some (some dedupeKey)
    · simp only [resolveDedupeEntry, if_pos hhas]
      exact hhas
    simp only [resolveDedupeEntry, if_neg hhas]
    intro found hat
    obtain rfl : offset = found := hcovers found hat
    exact hhas hat

end

/-! ### The records of one key -/

namespace OnceState

variable {s s' : OnceState} {k : String} {call : OnceCall}

/-- What holds of the records and the entry of a key while a call for it is in a phase. -/
def PhaseHolds (s : OnceState) (k : String) : OncePhase → Prop
  | .lookup => True
  | .resolve entry => s.index k = some entry
  | .syncQueue offset | .confirm offset | .barrier offset | .putUnconfirmed offset
  | .putConfirmed offset => s.log.HasAt k offset
  | .removeStale | .readTail | .removeReservation => s.log.Lacks k
  | .reserve tail => s.log.Lacks k ∧ tail ≤ s.log.length
  | .encode | .append =>
    s.log.Lacks k ∧ ∃ tail, s.index k = some ⟨tail, .pending⟩ ∧ tail ≤ s.log.length

/-- The records of a key: there is at most one, its entry covers it, and it is the one that calls have
reported. -/
structure Records (k : String) (s : OnceState) : Prop where
  covered : ∀ offset, s.log.HasAt k offset → ∃ entry, s.index k = some entry ∧ entry.Covers offset
  unique : ∀ offset offset', s.log.HasAt k offset → s.log.HasAt k offset' → offset = offset'
  reported : ∀ offset, (k, offset) ∈ s.reported → s.log.HasAt k offset

/-- The records of a key, and what a call for it knows of them. -/
structure Invariant (k : String) (s : OnceState) : Prop extends s.Records k where
  phase : ∀ call, s.call = some call → call.dedupeKey = k → s.PhaseHolds k call.phase

/-- The step adds no record of the key and leaves its entry and its reports alone. A call for the key was
in progress before, or is at its beginning. -/
structure Quiet (k : String) (s s' : OnceState) : Prop where
  log : s'.log = s.log ∨ ∃ header, header ≠ some k ∧ s'.log = s.log ++ [header]
  index : s'.index k = s.index k
  reported : ∀ offset, (k, offset) ∈ s'.reported → (k, offset) ∈ s.reported
  call : ∀ call, s'.call = some call → call.dedupeKey = k → s.call = some call ∨ call.phase = .lookup

lemma hasAt_append_iff {log : KeyedLog} {header : Option String} (hne : header ≠ some k)
    (offset : Nat) : KeyedLog.HasAt (log ++ [header]) k offset ↔ log.HasAt k offset := by
  rw [KeyedLog.HasAt, KeyedLog.HasAt, List.getElem?_append]
  split
  · exact Iff.rfl
  rename_i hout
  have hnone : log[offset]? = none := List.getElem?_eq_none (Nat.le_of_not_lt hout)
  rw [hnone]
  cases offset - log.length with
  | zero => simpa using hne
  | succ i => simp

lemma Quiet.hasAt_iff (h : Quiet k s s') (offset : Nat) :
    s'.log.HasAt k offset ↔ s.log.HasAt k offset := by
  obtain hlog | ⟨header, hne, hlog⟩ := h.log
  · rw [hlog]
  · rw [hlog]
    exact hasAt_append_iff hne offset

lemma Quiet.length_le (h : Quiet k s s') : s.log.length ≤ s'.log.length := by
  obtain hlog | ⟨header, -, hlog⟩ := h.log <;> simp [hlog]

lemma Quiet.phaseHolds (h : Quiet k s s') {phase : OncePhase} (hphase : s.PhaseHolds k phase) :
    s'.PhaseHolds k phase := by
  have hlacks (hs : s.log.Lacks k) : s'.log.Lacks k := fun offset hat =>
    hs offset ((h.hasAt_iff offset).mp hat)
  have hlength := h.length_le
  cases phase with
  | lookup => trivial
  | resolve entry => exact h.index.trans hphase
  | syncQueue offset | confirm offset | barrier offset | putUnconfirmed offset | putConfirmed offset =>
    exact (h.hasAt_iff offset).mpr hphase
  | removeStale | readTail | removeReservation => exact hlacks hphase
  | reserve tail => exact ⟨hlacks hphase.1, Nat.le_trans hphase.2 hlength⟩
  | encode | append =>
    obtain ⟨hs, tail, hindex, htail⟩ := hphase
    exact ⟨hlacks hs, tail, h.index.trans hindex, Nat.le_trans htail hlength⟩

lemma Invariant.quiet (hinv : s.Invariant k) (h : Quiet k s s') : s'.Invariant k where
  covered := by
    intro offset hat
    rw [h.index]
    exact hinv.covered offset ((h.hasAt_iff offset).mp hat)
  unique := by
    intro offset offset' hat hat'
    exact hinv.unique _ _ ((h.hasAt_iff offset).mp hat) ((h.hasAt_iff offset').mp hat')
  phase := by
    intro call hcall hkey
    obtain hold | hnew := h.call call hcall hkey
    · exact h.phaseHolds (hinv.phase call hold hkey)
    · rw [hnew]
      trivial
  reported := fun offset hreported => (h.hasAt_iff offset).mpr (hinv.reported offset
    (h.reported offset hreported))

/-! ### Steps of a call for another key -/

/-- What a step of a call touches: the entry, the records and the reports of its own key. -/
lemma advance_frame (s : OnceState) (call : OnceCall) (ok : Bool) :
    ((s.advance call ok).log = s.log ∨ (s.advance call ok).log = s.log ++ [some call.dedupeKey]) ∧
      (∀ j, j ≠ call.dedupeKey → (s.advance call ok).index j = s.index j) ∧
      (∀ report ∈ (s.advance call ok).reported, report ∈ s.reported ∨ report.1 = call.dedupeKey) ∧
      ∀ call', (s.advance call ok).call = some call' → call'.dedupeKey = call.dedupeKey := by
  have hindex (value : Option DedupeEntry) (j : String) (hj : j ≠ call.dedupeKey) :
      Function.update s.index call.dedupeKey value j = s.index j := Function.update_of_ne hj _ _
  unfold advance
  split
  all_goals
    simp only [goOn, fail, succeed, put, remove]
    repeat' split
    all_goals
      refine ⟨?_, ?_, ?_, ?_⟩
      · simp
      · first | exact hindex _ | exact fun _ _ => rfl
      · simp +contextual
      · simp +contextual [eq_comm]

lemma quiet_advance {ok : Bool} (hne : call.dedupeKey ≠ k) : Quiet k s (s.advance call ok) := by
  obtain ⟨hlog, hindex, hreported, hcall⟩ := advance_frame s call ok
  refine ⟨?_, hindex k hne.symm, fun offset hmem => ?_, fun call' hcall' hkey => ?_⟩
  · obtain hlog | hlog := hlog
    · exact .inl hlog
    · exact .inr ⟨_, fun heq => hne (Option.some.inj heq), hlog⟩
  · obtain hmem | heq := hreported _ hmem
    · exact hmem
    · exact absurd heq.symm hne
  · exact absurd ((hcall call' hcall').symm.trans hkey) hne

/-! ### Steps of a call for the key -/

section

section

variable (h : s.Records k)
include h

lemma Records.goOn {phase : OncePhase} (hphase : s.PhaseHolds k phase) :
    (s.goOn call phase).Invariant k where
  toRecords := { h with }
  phase := by
    rintro _ ⟨⟩ -
    exact hphase

lemma Records.fail : s.fail.Invariant k where
  toRecords := { h with }
  phase := nofun

lemma Records.succeed {offset : Nat} (hat : s.log.HasAt k offset) :
    (s.succeed k offset).Invariant k where
  __ := h
  reported := by
    intro offset' hmem
    obtain heq | hmem := List.mem_cons.mp hmem
    · rw [(Prod.mk.inj heq).2]
      exact hat
    · exact h.reported offset' hmem
  phase := nofun

lemma Records.put {entry : DedupeEntry}
    (hcovers : ∀ offset, s.log.HasAt k offset → entry.Covers offset) :
    (s.put k entry).Records k where
  covered := fun offset hat => ⟨entry, Function.update_self _ _ _, hcovers offset hat⟩
  __ := h

lemma Records.remove (hlacks : s.log.Lacks k) : (s.remove k).Records k where
  covered := fun offset hat => absurd hat (hlacks offset)
  __ := h

/-- The record of a key is appended where there is none yet, behind the reserved tail. -/
lemma Records.append (hlacks : s.log.Lacks k) {tail : Nat}
    (hindex : s.index k = some ⟨tail, .pending⟩) (htail : tail ≤ s.log.length) :
    { s with log := s.log ++ [some k] }.Records k ∧
      KeyedLog.HasAt (s.log ++ [some k]) k s.log.length := by
  have hat (offset : Nat) (hhas : KeyedLog.HasAt (s.log ++ [some k]) k offset) :
      offset = s.log.length := by
    rw [KeyedLog.HasAt, List.getElem?_append] at hhas
    split at hhas
    · exact absurd hhas (hlacks offset)
    · have hlt := (List.getElem?_eq_some_iff.mp hhas).1
      rw [List.length_singleton] at hlt
      omega
  refine ⟨⟨fun offset hhas => ⟨_, hindex, ?_⟩, fun offset offset' hhas hhas' => ?_,
    fun offset hmem => absurd (h.reported offset hmem) (hlacks offset)⟩, ?_⟩
  · rw [hat offset hhas]
    exact htail
  · rw [hat offset hhas, hat offset' hhas']
  · rw [KeyedLog.HasAt, List.getElem?_concat_length]

/-- The only record of a key is covered by an entry with its offset. -/
lemma Records.covers {offset : Nat} (hat : s.log.HasAt k offset) {state : DedupeEntryState}
    (hstate : state ≠ .pending) :
    ∀ other, s.log.HasAt k other → DedupeEntry.Covers ⟨offset, state⟩ other := by
  intro other hother
  have heq := h.unique offset other hat hother
  cases state with
  | pending => exact absurd rfl hstate
  | unconfirmed | confirmed => exact heq

end

lemma invariant_advance (hinv : s.Invariant k) (hcall : s.call = some call)
    (hkey : call.dedupeKey = k) (ok : Bool) : (s.advance call ok).Invariant k := by
  have h := hinv.toRecords
  have hphase := hinv.phase call hcall hkey
  obtain ⟨dedupeKey, sync, phase⟩ := call
  obtain rfl : dedupeKey = k := hkey
  cases ok with
  | false =>
    cases phase with
    | encode | append => exact h.goOn hphase.1
    | barrier offset => exact h.goOn hphase
    | _ => exact h.fail
  | true =>
    cases phase with
    | lookup =>
      simp only [advance, if_true]
      cases hindex : s.index dedupeKey with
      | none =>
        refine h.goOn fun offset hat => ?_
        obtain ⟨entry, hentry, -⟩ := h.covered offset hat
        rw [hindex] at hentry
        exact nomatch hentry
      | some entry => exact h.goOn hindex
    | resolve entry =>
      have hindex : s.index dedupeKey = some entry := hphase
      have hcovers (offset : Nat) (hat : s.log.HasAt dedupeKey offset) : entry.Covers offset := by
        obtain ⟨entry', hentry', hcovers⟩ := h.covered offset hat
        rw [hindex] at hentry'
        exact Option.some.inj hentry' ▸ hcovers
      have hresolve := resolveDedupeEntry_spec hcovers
      simp only [advance, if_true]
      cases hfound : resolveDedupeEntry s.log dedupeKey entry with
      | none =>
        rw [hfound] at hresolve
        exact h.goOn hresolve
      | some found =>
        rw [hfound] at hresolve
        simp only
        split
        · exact h.succeed hresolve
        · exact h.goOn hresolve
    | syncQueue offset =>
      exact Records.goOn (s := { s with synced := s.log.length })
        { h with } hphase
    | confirm offset | putConfirmed offset =>
      exact (h.put (h.covers hphase (by decide))).succeed hphase
    | removeStale => exact (h.remove hphase).goOn hphase
    | readTail => exact h.goOn ⟨hphase, Nat.le_refl _⟩
    | reserve tail =>
      simp only [advance, if_true]
      cases hindex : s.index dedupeKey with
      | none =>
        refine (h.put fun offset hat => absurd hat (hphase.1 offset)).goOn
          ⟨hphase.1, tail, ?_, hphase.2⟩
        exact Function.update_self _ _ _
      | some entry => exact h.fail
    | encode => exact h.goOn hphase
    | append =>
      obtain ⟨hlacks, tail, hindex, htail⟩ := hphase
      obtain ⟨hrecords, hat⟩ := h.append hlacks hindex htail
      refine hrecords.goOn ?_
      split
      · exact hat
      · exact hat
    | barrier offset =>
      exact Records.goOn (s := { s with synced := max s.synced (offset + 1) })
        { h with } hphase
    | putUnconfirmed offset => exact (h.put (h.covers hphase (by decide))).fail
    | removeReservation => exact (h.remove hphase).fail

end

/-! ### Runs -/

/-- For a key: no plain append carries it as its transfer id, and no crash loses a record that a call has
reported. -/
def Admissible (k : String) (s : OnceState) : OnceAction → Prop
  | .append transferID => transferID ≠ some k
  | .crash kept => ∀ offset, (k, offset) ∈ s.reported → offset < max kept s.synced
  | _ => True

lemma invariant_step (s : OnceState) (a : OnceAction) (hinv : s.Invariant k)
    (ha : s.Admissible k a) : (s.step a).Invariant k := by
  cases a with
  | append transferID =>
    exact hinv.quiet ⟨.inr ⟨transferID, ha, rfl⟩, rfl, fun _ => id, fun _ hcall _ => .inl hcall⟩
  | sync => exact hinv.quiet ⟨.inl rfl, rfl, fun _ => id, fun _ hcall _ => .inl hcall⟩
  | begin dedupeKey sync =>
    rw [step]
    split
    · refine hinv.quiet ⟨.inl rfl, rfl, fun _ => id, ?_⟩
      rintro _ ⟨⟩ -
      exact .inr rfl
    · exact hinv
  | advance ok =>
    rw [step]
    split
    · exact hinv
    rename_i call hcall
    by_cases hkey : call.dedupeKey = k
    · exact invariant_advance hinv hcall hkey ok
    · exact hinv.quiet (quiet_advance hkey)
  | crash kept =>
    have hat {offset : Nat} (hhas : KeyedLog.HasAt (s.log.take (max kept s.synced)) k offset) :
        s.log.HasAt k offset := by
      rw [KeyedLog.HasAt, List.getElem?_take] at hhas
      split at hhas
      · exact hhas
      · exact nomatch hhas
    refine ⟨⟨fun offset hhas => hinv.covered offset (hat hhas), fun offset offset' hhas hhas' =>
      hinv.unique _ _ (hat hhas) (hat hhas'), fun offset hmem => ?_⟩, nofun⟩
    rw [step, KeyedLog.HasAt, List.getElem?_take, if_pos (ha offset hmem)]
    exact hinv.reported offset hmem

/-- Whatever fails and wherever the process crashes, a key has at most one record, and once a call has
reported one there is exactly one, at the offset that every call has reported. -/
theorem appended_once (k : String) (actions : List OnceAction)
    (h : Along step (Admissible k) {} actions) :
    let s := run step {} actions
    (∀ i j : Nat, s.log[i]? = some (some k) → s.log[j]? = some (some k) → i = j) ∧
      ∀ offset, (k, offset) ∈ s.reported →
        s.log[offset]? = some (some k) ∧
          ∀ other : Nat, s.log[other]? = some (some k) → other = offset := by
  have hinit : ({} : OnceState).Invariant k := ⟨⟨nofun, nofun, nofun⟩, nofun⟩
  have hinv := invariant_run invariant_step hinit h
  refine ⟨hinv.unique, fun offset hmem => ?_⟩
  have hat := hinv.reported offset hmem
  exact ⟨hat, fun other hother => hinv.unique other offset hother hat⟩

/-- The process crashes between the append and the last write of the entry, and the record is kept. The
retry finds it. -/
theorem appended_once_after_crash :
    let actions : List OnceAction :=
      .begin "k" false :: List.replicate 5 (.advance true) ++
        .crash 1 :: .append none :: .begin "k" true :: List.replicate 4 (.advance true)
    (run step {} actions).log[0]? = some (some "k") ∧
      ∀ other : Nat, (run step {} actions).log[other]? = some (some "k") → other = 0 := by
  refine (appended_once "k" _ ?_).2 0 (by decide)
  refine ⟨trivial, trivial, trivial, trivial, trivial, trivial, fun offset hmem => ?_, nofun, trivial,
    trivial, trivial, trivial, trivial, trivial⟩
  exact nomatch hmem

/-- A plain append of a message that has the key as its transfer id is not seen by the call. A record
that was reported without a barrier is reported with one, and still lost. -/
theorem appended_twice :
    (run step {} (.append (some "k") :: .begin "k" false :: List.replicate 6 (.advance true))).log =
        [some "k", some "k"] ∧
      (run step {} (.append (some "k") :: .begin "k" false ::
        List.replicate 6 (.advance true))).reported = [("k", 1)] ∧
      (run step {} (.begin "k" false :: List.replicate 6 (.advance true) ++
        .begin "k" true :: List.replicate 2 (.advance true))).reported = [("k", 0), ("k", 0)] ∧
      (run step {} (.begin "k" false :: List.replicate 6 (.advance true) ++
        .begin "k" true :: List.replicate 2 (.advance true) ++ [.crash 0])).log = [] := by
  decide

end OnceState

end FluxMQ.Logstorage
