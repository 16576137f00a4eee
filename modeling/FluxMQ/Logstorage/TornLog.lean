import FluxMQ.Logstorage.OpLogText
import Mathlib.Algebra.Order.BigOperators.Group.List

/-!
# A torn record in the operation log

A session appends records to `ops.log`, and a crash may cut the last one at any byte. The next
session opens the file for appending and writes behind the cut. `replayOpLog` stops at the torn
record, so that the records behind it are never applied again.
-/

namespace FluxMQ

open LogOperation List

/-- The bytes that JSON allows between values. -/
def isJsonSpace (b : UInt8) : Bool :=
  b == 32 || b == 9 || b == 10 || b == 13

/-- The loop of `replayOpLog` over the records it can decode, at most so many. -/
def readRecords : Nat → List UInt8 → List LogOperation
  | 0, _ => []
  | fuel + 1, data =>
    match LogOperation.decode (data.dropWhile isJsonSpace) with
    | none => []
    | some (op, rest) => op :: readRecords fuel rest

/-- The records that `replayOpLog` applies. A record takes at least one byte. -/
def readOpLog (data : List UInt8) : List LogOperation :=
  readRecords (data.length + 1) data

def ConsumerState.replayOpLog (cs : ConsumerState) (data : List UInt8) : ConsumerState :=
  cs.replay (readOpLog data)

/-- What one session appends: records, and perhaps the first bytes of one more. -/
structure LogSession where
  written : List LogOperation := []
  cut : Option (LogOperation × Nat) := none

namespace LogSession

/-- The bytes of the record that was being written at the end. -/
def cutBytes (s : LogSession) : List UInt8 :=
  match s.cut with
  | none => []
  | some (op, k) => op.line.take k

/-- The bytes that the session appends. -/
def bytes (s : LogSession) : List UInt8 :=
  s.written.flatMap LogOperation.line ++ s.cutBytes

/-- The last record if it was written after all: of its line, only the newline may be missing. -/
def lastCompleted (s : LogSession) : List LogOperation :=
  match s.cut with
  | none => []
  | some (op, k) => if op.encode.length ≤ k then [op] else []

/-- The records that were completely written. -/
def completed (s : LogSession) : List LogOperation :=
  s.written ++ s.lastCompleted

/-- The session ends within a record. -/
def IsTorn (s : LogSession) : Prop :=
  ∃ op k, s.cut = some (op, k) ∧ 0 < k ∧ k < op.encode.length

end LogSession

/-! ### Reading records -/

variable {op : LogOperation} {fuel : Nat} {rest : List UInt8}

lemma LogOperation.encode_eq_cons (op : LogOperation) :
    ∃ body, op.encode = Json.ascii '\x7b' :: body :=
  ⟨_, rfl⟩

lemma readRecords_encode :
    readRecords (fuel + 1) (op.encode ++ rest) = op :: readRecords fuel rest := by
  have hskip : (op.encode ++ rest).dropWhile isJsonSpace = op.encode ++ rest := by
    exact dropWhile_cons_of_neg (by decide)
  rw [readRecords, hskip, op.reads_decode]

lemma readRecords_newline : readRecords fuel (Json.ascii '\n' :: rest) = readRecords fuel rest := by
  cases fuel with
  | zero => rfl
  | succ fuel =>
    rw [readRecords, readRecords]
    rw [dropWhile_cons_of_pos (by decide)]

lemma readRecords_line :
    readRecords (fuel + 1) (op.line ++ rest) = op :: readRecords fuel rest := by
  rw [line, append_assoc, readRecords_encode, singleton_append, readRecords_newline]

lemma readRecords_lines (ops : List LogOperation) :
    readRecords (ops.length + fuel) (ops.flatMap line ++ rest) = ops ++ readRecords fuel rest := by
  induction ops with
  | nil => simp
  | cons op ops ih =>
    rw [length_cons, flatMap_cons, append_assoc, Nat.add_right_comm, readRecords_line, ih]
    rfl

/-- The bytes of a torn record are not taken for one. -/
lemma readRecords_torn {k : Nat} (hpos : 0 < k) (hk : k < op.encode.length) :
    readRecords fuel (op.line.take k) = [] := by
  cases fuel with
  | zero => rfl
  | succ fuel =>
    have htake : op.line.take k = op.encode.take k := take_append_of_le_length hk.le
    have hskip : (op.encode.take k).dropWhile isJsonSpace = op.encode.take k := by
      obtain ⟨k, rfl⟩ := Nat.exists_eq_succ_of_ne_zero hpos.ne'
      exact dropWhile_cons_of_neg (by decide)
    rw [readRecords, htake, hskip, Parser.take_eq_none stable_decode op.reads_decode hk]

lemma readRecords_nil : readRecords fuel [] = [] := by
  cases fuel <;> rfl

/-! ### Reading sessions -/

namespace LogSession

variable {s : LogSession}

/-- A session that does not end within a record is read back, and what follows it is read on. -/
lemma readRecords_bytes (h : ¬ s.IsTorn) :
    readRecords (s.completed.length + fuel) (s.bytes ++ rest) =
      s.completed ++ readRecords fuel rest := by
  rw [bytes, completed, length_append, Nat.add_assoc, append_assoc, readRecords_lines, append_assoc]
  congr 1
  unfold lastCompleted cutBytes
  rcases hcut : s.cut with _ | ⟨op, k⟩
  · simp
  simp only
  rcases Nat.eq_zero_or_pos k with rfl | hpos
  · -- Nothing was written of the record.
    have hlen : ¬ op.encode.length ≤ 0 := by
      obtain ⟨body, hbody⟩ := op.encode_eq_cons
      simp [hbody]
    simp [hlen]
  have hk : op.encode.length ≤ k := by
    by_contra hlt
    exact h ⟨op, k, hcut, hpos, not_le.1 hlt⟩
  rw [if_pos hk]
  rcases hk.eq_or_lt with heq | hlt
  · -- Only the newline is missing.
    rw [line, ← heq, take_left, length_singleton, Nat.add_comm, readRecords_encode]
    rfl
  · have hwhole : op.line.take k = op.line := take_of_length_le (by simpa [line] using hlt)
    rw [hwhole, length_singleton, Nat.add_comm, readRecords_line]
    rfl

/-- A session that ends within a record is read back at the end of the file. -/
lemma readRecords_bytes_torn (h : s.IsTorn) :
    readRecords (s.completed.length + fuel) s.bytes = s.completed := by
  obtain ⟨op, k, hcut, hpos, hk⟩ := h
  have hlast : s.lastCompleted = [] := by simp [lastCompleted, hcut, hk]
  have hbytes : s.cutBytes = op.line.take k := by simp [cutBytes, hcut]
  rw [completed, hlast, append_nil, bytes, readRecords_lines, hbytes, readRecords_torn hpos hk,
    append_nil]

/-- A completed record takes at least one byte. -/
lemma length_completed_le (s : LogSession) : s.completed.length ≤ s.bytes.length := by
  have hline : ∀ op : LogOperation, 0 < op.line.length := fun op => by simp [line]
  have hwritten : s.written.length ≤ (s.written.flatMap line).length := by
    induction s.written with
    | nil => simp
    | cons op ops ih =>
      have := hline op
      simp only [flatMap_cons, length_append, length_cons]
      omega
  have hlast : s.lastCompleted.length ≤ s.cutBytes.length := by
    unfold lastCompleted cutBytes
    rcases s.cut with _ | ⟨op, k⟩
    · simp
    simp only
    split
    · rename_i hk
      obtain ⟨body, hbody⟩ := op.encode_eq_cons
      simp only [line, hbody, length_cons, length_take, length_append] at hk ⊢
      simp only [length_nil]
      omega
    · simp
  simp only [completed, bytes, length_append]
  omega

end LogSession

/-- Nothing is appended to the file after a torn record. -/
def TornLast (sessions : List LogSession) : Prop :=
  sessions.Pairwise fun s later => s.IsTorn → later.bytes = []

/-- The records read from the file of several sessions. -/
lemma readRecords_sessions {sessions : List LogSession} (h : TornLast sessions) :
    readRecords ((sessions.flatMap LogSession.completed).length + fuel)
        (sessions.flatMap LogSession.bytes) =
      sessions.flatMap LogSession.completed := by
  induction sessions with
  | nil => exact readRecords_nil
  | cons s sessions ih =>
    obtain ⟨hfirst, hrest⟩ := pairwise_cons.1 h
    by_cases htorn : s.IsTorn
    · -- Whatever comes after the torn record is empty, and so are the records in it.
      have hbytes : sessions.flatMap LogSession.bytes = [] := by
        rw [flatMap_eq_nil_iff]
        exact fun s' hs' => hfirst s' hs' htorn
      have hcompleted : sessions.flatMap LogSession.completed = [] := by
        rw [flatMap_eq_nil_iff]
        intro s' hs'
        have hle := s'.length_completed_le
        rw [hfirst s' hs' htorn] at hle
        exact length_eq_zero_iff.1 (Nat.le_zero.1 hle)
      rw [flatMap_cons, flatMap_cons, hbytes, hcompleted, append_nil, append_nil]
      exact LogSession.readRecords_bytes_torn htorn
    · rw [flatMap_cons, flatMap_cons, length_append, Nat.add_assoc,
        LogSession.readRecords_bytes htorn, ih hrest]

/-- If nothing is appended after a torn record, the replay applies every record that was completely
written, in order. -/
theorem replayOpLog_sessions (cs : ConsumerState) (sessions : List LogSession)
    (h : TornLast sessions) :
    cs.replayOpLog (sessions.flatMap LogSession.bytes) =
      cs.replay (sessions.flatMap LogSession.completed) := by
  have hle : (sessions.flatMap LogSession.completed).length ≤
      (sessions.flatMap LogSession.bytes).length := by
    rw [length_flatMap, length_flatMap]
    exact sum_le_sum fun s _ => s.length_completed_le
  obtain ⟨k, hk⟩ := Nat.exists_eq_add_of_le hle
  rw [ConsumerState.replayOpLog, readOpLog, hk, Nat.add_assoc, readRecords_sessions h]

/-- The record of a cursor that was set. -/
def setCursorRecord (cursor : Nat) : LogOperation :=
  { type := .setCursor, offset := cursor }

/-- A session sets the cursor, and crashes while it writes that it set it again; the next session
sets it once more. -/
def tornSessions : List LogSession :=
  [{ written := [setCursorRecord 5], cut := some (setCursorRecord 7, 9) },
    { written := [setCursorRecord 9] }]

/-- What the next session wrote, completely, is lost behind the torn record. -/
theorem replayOpLog_tornSessions :
    (({} : ConsumerState).replayOpLog (tornSessions.flatMap LogSession.bytes)).cursor = 5 ∧
      (({} : ConsumerState).replay (tornSessions.flatMap LogSession.completed)).cursor = 9 := by
  decide +kernel

/-- A torn record at the end of the file costs only itself: two sessions write, and the second crashes
in its last record. -/
theorem replayOpLog_torn_last :
    ({} : ConsumerState).replayOpLog
        ([{ written := [setCursorRecord 5] },
          { written := [setCursorRecord 6], cut := some (setCursorRecord 7, 9) }].flatMap
            LogSession.bytes) =
      ({} : ConsumerState).replay [setCursorRecord 5, setCursorRecord 6] := by
  refine replayOpLog_sessions _ _ (pairwise_pair.2 fun htorn => ?_)
  obtain ⟨cut, hcut⟩ := htorn
  exact nomatch hcut

end FluxMQ
