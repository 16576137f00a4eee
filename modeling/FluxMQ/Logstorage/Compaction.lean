import FluxMQ.Library.Runs
import FluxMQ.Logstorage.Progress

/-!
# Compaction of a consumer state

`compactLocked` of `logstorage/consumer_state.go` writes the group's positions to `state.json`,
then each shard of the pending list to its own file, and then empties `ops.log`. Each write
replaces one file at once, so a crash leaves the files of some first part of the writes new and
all others old. `NewConsumerState` reads the files as it finds them and replays the whole log over
them, although a file that is new contains what its records did already.

A consumer state on disk is modelled by the contents of its files, of which a missing one reads as
an empty one. The version and the times that the snapshots carry, which nothing reads, are left
out.
-/

namespace FluxMQ

open ConsumerState List

/-- `GroupState`: the content of `state.json`. -/
structure GroupState where
  ackFloor : Nat := 0
  cursor : Nat := 0
  delivered : Nat := 0
  deriving Repr, DecidableEq

section

variable {n : Nat} [NeZero n]

def shardKey (n : Nat) [NeZero n] (offset : Nat) : Fin n :=
  Fin.ofNat n offset

/-- The content of one shard's file: entries of this shard, keyed by offset. -/
structure ShardFile (n : Nat) [NeZero n] (i : Fin n) where
  entries : List LogPendingEntry := []
  nodup : (entries.map fun e => e.offset).Nodup := by exact List.nodup_nil
  home : ∀ e ∈ entries, shardKey n e.offset = i := by simp

/-- The files of one consumer state. -/
structure StateFiles (n : Nat) [NeZero n] where
  /-- `state.json`. -/
  group : GroupState := {}
  /-- `pel_<i>.json`. -/
  shards : (i : Fin n) → ShardFile n i := fun _ => {}
  /-- The records in `ops.log`. -/
  log : List LogOperation := []

/-- The positions of a consumer state. -/
def ConsumerState.group (cs : ConsumerState) : GroupState :=
  ⟨cs.ackFloor, cs.cursor, cs.delivered⟩

/-- One shard of a consumer state. -/
def ConsumerState.shard (cs : ConsumerState) (i : Fin n) : ShardFile n i where
  entries := cs.entries.filter fun e => shardKey n e.offset = i
  nodup := cs.nodup_filter _
  home := fun e he => by simpa using (List.mem_filter.1 he).2

namespace StateFiles

/-- Entries of different shards have different offsets. -/
lemma nodup_shards (shards : (i : Fin n) → ShardFile n i) :
    (((finRange n).flatMap fun i => (shards i).entries).map fun e => e.offset).Nodup := by
  rw [map_flatMap, nodup_flatMap]
  refine ⟨fun i _ => (shards i).nodup, (nodup_finRange n).imp fun {i j} hij => ?_⟩
  simp only [Function.onFun, disjoint_left, mem_map]
  rintro _ ⟨e, he, rfl⟩ ⟨e', he', hoffset⟩
  exact hij (by rw [← (shards i).home e he, ← (shards j).home e' he', hoffset])

/-- `load` reads the snapshots. -/
def load (files : StateFiles n) : ConsumerState where
  ackFloor := files.group.ackFloor
  cursor := files.group.cursor
  delivered := files.group.delivered
  entries := (List.finRange n).flatMap fun i => (files.shards i).entries
  nodup := nodup_shards files.shards

/-- `NewConsumerState`: load the snapshots and replay the log. -/
def reopen (files : StateFiles n) : ConsumerState :=
  files.load.replay files.log

end StateFiles

/-- One write of `compactLocked`. -/
inductive CompactWrite (n : Nat) where
  | state
  | shard (i : Fin n)
  | truncate
  deriving Repr, DecidableEq

/-- The writes of `compactLocked`, in order. -/
def compactWrites (n : Nat) : List (CompactWrite n) :=
  .state :: (List.finRange n).map .shard ++ [.truncate]

namespace StateFiles

/-- Perform one write of a compaction of `cs`. -/
def write (cs : ConsumerState) (files : StateFiles n) : CompactWrite n → StateFiles n
  | .state => { files with group := cs.group }
  | .shard i => { files with shards := Function.update files.shards i (cs.shard i) }
  | .truncate => { files with log := [] }

/-- The files a compaction of `cs` leaves that gets through its first `k` writes. -/
def compactTo (cs : ConsumerState) (k : Nat) (files : StateFiles n) : StateFiles n :=
  ((compactWrites n).take k).foldl (write cs) files

/-- The files a whole compaction leaves. -/
def compact (cs : ConsumerState) (files : StateFiles n) : StateFiles n :=
  (compactWrites n).foldl (write cs) files

end StateFiles

/-- A consumer state in memory with its files. -/
structure StateProcess (n : Nat) [NeZero n] where
  state : ConsumerState := {}
  files : StateFiles n := {}

/-- What may happen to a consumer state: a call, a compaction, or a crash in a compaction after
`k` of its writes, with the process started again. No write made is a crash at rest. -/
inductive StateAction where
  | call (call : StateCall)
  | compact
  | crash (k : Nat)
  deriving Repr, DecidableEq

/-- Perform one action. -/
def StateProcess.step (p : StateProcess n) : StateAction → StateProcess n
  | .call c =>
    { state := c.onState p.state, files := { p.files with log := p.files.log ++ c.records } }
  | .compact => { p with files := p.files.compact p.state }
  | .crash k =>
    let files := p.files.compactTo p.state k
    { state := files.reopen, files }

/-! ### What the files hold -/

namespace ShardFile

/-- What is held at an offset, by the file of one shard. -/
def holding {i : Fin n} (file : ShardFile n i) (offset : Nat) : Option Holding :=
  (file.entries.find? fun e => e.offset == offset).map fun e => (e.consumerId, e.deliveryCount)

end ShardFile

namespace StateFiles

variable {files : StateFiles n} {cs : ConsumerState} {offset : Nat}

/-- An offset is looked up in its own shard. -/
lemma holding_load (files : StateFiles n) (offset : Nat) :
    files.load.holding offset = (files.shards (shardKey n offset)).holding offset := by
  unfold holding ShardFile.holding
  congr 1
  ext e
  rw [entryAt_eq_some_iff, find?_key_eq_some_iff (files.shards (shardKey n offset)).nodup]
  simp only [load, mem_flatMap, mem_finRange, true_and]
  constructor
  · rintro ⟨⟨i, he⟩, rfl⟩
    rw [(files.shards i).home e he]
    exact ⟨he, rfl⟩
  · rintro ⟨he, hoffset⟩
    exact ⟨⟨_, he⟩, hoffset⟩

/-- The shard of an offset holds what the state holds. -/
lemma holding_shard (cs : ConsumerState) (offset : Nat) :
    (cs.shard (shardKey n offset)).holding offset = cs.holding offset := by
  unfold holding ShardFile.holding
  congr 1
  ext e
  rw [entryAt_eq_some_iff, find?_key_eq_some_iff (cs.shard (shardKey n offset)).nodup]
  simp only [shard, mem_filter, decide_eq_true_eq]
  constructor
  · rintro ⟨⟨he, -⟩, hoffset⟩
    exact ⟨he, hoffset⟩
  · rintro ⟨he, rfl⟩
    exact ⟨⟨he, rfl⟩, rfl⟩

/-! ### What some writes of a compaction leave -/

section

variable (writes : List (CompactWrite n)) (cs : ConsumerState) (files : StateFiles n)

lemma group_foldl_write : (writes.foldl (write cs) files).group =
    if .state ∈ writes then cs.group else files.group := by
  induction writes generalizing files with
  | nil => simp
  | cons w writes ih =>
    rw [foldl_cons, ih]
    cases w <;> simp [write]

lemma log_foldl_write :
    (writes.foldl (write cs) files).log = if .truncate ∈ writes then [] else files.log := by
  induction writes generalizing files with
  | nil => simp
  | cons w writes ih =>
    rw [foldl_cons, ih]
    cases w <;> simp [write]

lemma shards_foldl_write (i : Fin n) : (writes.foldl (write cs) files).shards i =
    if .shard i ∈ writes then cs.shard i else files.shards i := by
  induction writes generalizing files with
  | nil => simp
  | cons w writes ih =>
    rw [foldl_cons, ih]
    cases w with
    | shard j =>
      by_cases hij : i = j
      · subst hij
        simp [write]
      · simp [write, hij]
    | _ => simp [write]

lemma holding_load_foldl_write (offset : Nat) :
    (writes.foldl (write cs) files).load.holding offset =
      if .shard (shardKey n offset) ∈ writes then cs.holding offset
      else files.load.holding offset := by
  rw [holding_load, shards_foldl_write, holding_load]
  split
  · exact holding_shard cs offset
  · rfl

end

end StateFiles

end

end FluxMQ
