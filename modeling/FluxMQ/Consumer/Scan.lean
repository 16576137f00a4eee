import FluxMQ.Logstorage.Log

/-!
# Scanning the log from a cursor

`claimFromCursor` and `peekBatchStreamLocked` of `queue/consumer/manager.go` walk the log from the
group's cursor. A record that was truncated, does not decode, has expired or is outside the filter
is stepped over; the others are eligible. One call examines at most `maxCursorScan` records.

* `Eligible`: the record at an offset would be handed to the consumer.
* `scanCursor`: the walk of `claimFromCursor`, which stops at the first eligible record.
* `scanBatch`: the walk of `peekBatchStreamLocked`, which collects a batch of them.
-/

namespace FluxMQ

/-- The value of the constant `maxCursorScan`. -/
def maxCursorScan : Nat := 1024

/-- A compiled routing-key filter: the keys it matches. No filter matches every record. -/
abbrev Filter := Option (String → Bool)

/-- The walk of `ExtractRoutingKey` over the levels of the queue root. -/
def routingLevels : (root topic : List String) → Option (List String)
  | [], topic => some topic
  | "#" :: _, topic => some topic
  | _ :: _, [] => none
  | r :: root, t :: topic => if r = "+" ∨ r = t then routingLevels root topic else none

/-- `ExtractRoutingKey`: the levels of a topic below the queue root. -/
def extractRoutingKey (topic queueRoot : String) : String :=
  if topic = "" ∨ queueRoot = "" then ""
  else
    match routingLevels (queueRoot.splitOn "/") (topic.splitOn "/") with
    | some levels => "/".intercalate levels
    | none => ""

/-- The filter check a claim makes on an envelope of the queue. -/
def Filter.admits (filter : Filter) (queueName : String) (e : Envelope) : Bool :=
  match filter with
  | none => true
  | some matches' => matches' (extractRoutingKey e.topic ("$queue/" ++ queueName))

/-- The record at `offset` would be handed to a consumer whose check of it reads the clock at
`now`. -/
def eligible (log : Log) (filter : Filter) (queueName : String) (now : Time) (offset : Nat) :
    Bool :=
  match log.read offset with
  | .ok e => !e.isExpired now && filter.admits queueName e
  | .error _ => false

/-- Where a scan begins: the cursor, or the head when retention has truncated past it. -/
def scanStart (log : Log) (cursor : Nat) : Nat :=
  if log.head ≤ cursor then cursor else log.head

/-- Step from `cursor` to the first eligible offset below `tail`, looking at no more than `fuel`
records. Returns that offset, if any, and where the walk stopped. -/
def scanCursor (ok : Nat → Bool) (tail : Nat) : (fuel cursor : Nat) → Option Nat × Nat
  | 0, cursor => (none, cursor)
  | fuel + 1, cursor =>
    if cursor < tail then
      if ok cursor then (some cursor, cursor + 1) else scanCursor ok tail fuel (cursor + 1)
    else (none, cursor)

/-- Collect at most `limit` eligible offsets from `cursor` on, looking at no more than `fuel`
records. Returns them and where the walk stopped. -/
def scanBatch (ok : Nat → Bool) (tail : Nat) : (fuel limit cursor : Nat) → List Nat × Nat
  | 0, _, cursor => ([], cursor)
  | _ + 1, 0, cursor => ([], cursor)
  | fuel + 1, limit + 1, cursor =>
    if cursor < tail then
      if ok cursor then
        let rest := scanBatch ok tail fuel limit (cursor + 1)
        (cursor :: rest.1, rest.2)
      else scanBatch ok tail fuel (limit + 1) (cursor + 1)
    else ([], cursor)

section

variable {ok : Nat → Bool} {tail fuel limit cursor next offset : Nat}

lemma le_scanStart (log : Log) (cursor : Nat) : cursor ≤ scanStart log cursor := by
  unfold scanStart
  split <;> omega

/-- A walk that finds a record finds the first eligible one and stops behind it. -/
lemma scanCursor_some (h : scanCursor ok tail fuel cursor = (some offset, next)) :
    cursor ≤ offset ∧ offset < tail ∧ ok offset ∧ next = offset + 1 ∧
      ∀ i, cursor ≤ i → i < offset → ¬ ok i := by
  fun_induction scanCursor ok tail fuel cursor with
  | case1 | case4 => simp at h
  | case2 fuel cursor hlt hok =>
    obtain ⟨rfl, rfl⟩ : cursor = offset ∧ cursor + 1 = next := by simpa using h
    exact ⟨le_rfl, hlt, hok, rfl, fun i h1 h2 => by omega⟩
  | case3 fuel cursor hlt hno ih =>
    obtain ⟨hle, htail, hok, hnext, hskip⟩ := ih h
    refine ⟨by omega, htail, hok, hnext, fun i h1 h2 => ?_⟩
    rcases Nat.eq_or_lt_of_le h1 with rfl | hlt'
    · exact hno
    · exact hskip i hlt' h2

/-- A walk that finds nothing stops at or behind its start, having seen no eligible record. -/
lemma scanCursor_none (h : scanCursor ok tail fuel cursor = (none, next)) :
    cursor ≤ next ∧ (cursor < next → next ≤ tail) ∧ ∀ i, cursor ≤ i → i < next → ¬ ok i := by
  fun_induction scanCursor ok tail fuel cursor with
  | case1 cursor | case4 fuel cursor =>
    obtain rfl : cursor = next := by simpa using h
    exact ⟨le_rfl, fun h => absurd h (lt_irrefl _), fun i h1 h2 => by omega⟩
  | case2 => simp at h
  | case3 fuel cursor hlt hno ih =>
    obtain ⟨hle, htail, hskip⟩ := ih h
    refine ⟨by omega, fun _ => ?_, fun i h1 h2 => ?_⟩
    · rcases Nat.eq_or_lt_of_le hle with heq | hlt'
      · omega
      · exact htail hlt'
    · rcases Nat.eq_or_lt_of_le h1 with rfl | hlt'
      · exact hno
      · exact hskip i hlt' h2

/-- A batch stops between its start and the tail, or at its start. -/
lemma scanBatch_bounds (ok : Nat → Bool) (tail fuel limit cursor : Nat) :
    cursor ≤ (scanBatch ok tail fuel limit cursor).2 ∧
      (scanBatch ok tail fuel limit cursor).2 ≤ max cursor tail := by
  fun_induction scanBatch with
  | case1 | case2 | case5 => exact ⟨le_rfl, le_max_left _ _⟩
  | case3 fuel limit cursor hlt hok rest ih | case4 fuel limit cursor hlt hno ih =>
    exact ⟨(Nat.le_succ cursor).trans ih.1, ih.2.trans (by omega)⟩

/-- A batch holds exactly the eligible offsets between its start and where it stopped. -/
lemma mem_scanBatch : offset ∈ (scanBatch ok tail fuel limit cursor).1 ↔
    cursor ≤ offset ∧ offset < (scanBatch ok tail fuel limit cursor).2 ∧ ok offset := by
  fun_induction scanBatch ok tail fuel limit cursor with
  | case1 | case2 | case5 =>
    simp only [List.not_mem_nil, false_iff]
    omega
  | case3 fuel limit cursor hlt hok rest ih =>
    have hle := (scanBatch_bounds ok tail fuel limit (cursor + 1)).1
    rw [List.mem_cons, ih]
    constructor
    · rintro (rfl | ⟨hge, hrest⟩)
      · exact ⟨le_rfl, hle, hok⟩
      · exact ⟨by omega, hrest⟩
    rintro ⟨hge, hrest⟩
    rcases Nat.eq_or_lt_of_le hge with rfl | hgt
    · exact Or.inl rfl
    · exact Or.inr ⟨hgt, hrest⟩
  | case4 fuel limit cursor hlt hno ih =>
    rw [ih]
    constructor
    · rintro ⟨hge, hrest⟩
      exact ⟨by omega, hrest⟩
    · rintro ⟨hge, hnext, hok⟩
      have hne : cursor ≠ offset := fun h => hno (h ▸ hok)
      exact ⟨by omega, hnext, hok⟩

/-- A batch lists its offsets in increasing order. -/
lemma pairwise_scanBatch (ok : Nat → Bool) (tail fuel limit cursor : Nat) :
    (scanBatch ok tail fuel limit cursor).1.Pairwise (· < ·) := by
  fun_induction scanBatch with
  | case1 | case2 | case5 => exact List.Pairwise.nil
  | case3 fuel limit cursor hlt hok rest ih =>
    exact List.pairwise_cons.2 ⟨fun i hi => (mem_scanBatch.1 hi).1, ih⟩
  | case4 fuel limit cursor hlt hno ih => exact ih

end

end FluxMQ
