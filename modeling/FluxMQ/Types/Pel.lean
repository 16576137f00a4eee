import FluxMQ.Types.ConsumerGroup

/-!
# Who holds an offset

The Pending Entry List read as a function from offsets to the consumers that hold them, and what
the ways of changing a PEL do to it.

* `Pel.owner`: the consumer the entry at an offset is filed under.
* `Pel.Distinct`: no offset occurs twice.
* `Pel.Filed`: every entry is filed under the consumer it names.
-/

namespace FluxMQ

open List

/-- An order in which the entries of a PEL are visited. -/
abbrev PelOrder := IterationOrder (String × PendingEntry)

namespace Pel

/-- The consumer the entry at an offset is filed under. -/
def owner (pel : Pel) (offset : Nat) : Option String :=
  (pel.find? fun p => p.2.offset == offset).map fun p => p.1

/-- No offset occurs twice. -/
def Distinct (pel : Pel) : Prop :=
  (pel.map fun p => p.2.offset).Nodup

/-- Every entry is filed under the consumer it names. -/
def Filed (pel : Pel) : Prop :=
  ∀ p ∈ pel, p.1 = p.2.consumerId

instance (pel : Pel) : Decidable pel.Distinct := inferInstanceAs (Decidable (List.Nodup _))

instance (pel : Pel) : Decidable pel.Filed := inferInstanceAs (Decidable (∀ p ∈ pel, _))

variable {pel : Pel} {offset o : Nat} {consumer : String}

@[simp]
lemma owner_nil : owner [] o = none := rfl

lemma distinct_nil : Distinct [] := nodup_nil

lemma filed_nil : Filed [] := by simp [Filed]

/-- An offset is held exactly when an entry carries it. -/
lemma owner_isSome_iff : (pel.owner o).isSome ↔ ∃ p ∈ pel, p.2.offset = o := by simp [owner]

lemma owner_eq_none_iff : pel.owner o = none ↔ ∀ p ∈ pel, p.2.offset ≠ o := by simp [owner]

/-- With distinct offsets, the owner of an offset is the one its entry is filed under. -/
lemma owner_eq_some_iff (h : pel.Distinct) :
    pel.owner o = some consumer ↔ ∃ p ∈ pel, p.2.offset = o ∧ p.1 = consumer := by
  unfold owner
  rw [Option.map_eq_some_iff]
  constructor
  · rintro ⟨p, hfind, hp⟩
    obtain ⟨hmem, hoff⟩ := (find?_key_eq_some_iff h).1 hfind
    exact ⟨p, hmem, hoff, hp⟩
  · rintro ⟨p, hmem, hoff, hp⟩
    exact ⟨p, (find?_key_eq_some_iff h).2 ⟨hmem, hoff⟩, hp⟩

variable {e : PendingEntry}

/-- Filing a new entry. -/
lemma owner_append (h : pel.owner e.offset = none) :
    owner (pel ++ [(consumer, e)]) = Function.update pel.owner e.offset (some consumer) := by
  funext o
  unfold owner at h ⊢
  rw [find?_append]
  by_cases ho : o = e.offset
  · subst ho
    simp only [Option.map_eq_none_iff] at h
    simp [h]
  rw [Function.update_of_ne ho]
  have hlast : [(consumer, e)].find? (fun p => p.2.offset == o) = none := by simp [Ne.symm ho]
  rw [hlast, Option.or_none]

/-- Dropping the entries at an offset. -/
lemma owner_filter (pel : Pel) (offset : Nat) :
    owner (pel.filter fun p => p.2.offset != offset) = Function.update pel.owner offset none := by
  funext o
  unfold owner
  rw [find?_filter]
  by_cases ho : o = offset
  · subst ho
    simp
  rw [Function.update_of_ne ho]
  congr 2
  funext p
  by_cases hp : p.2.offset = o
  · simp [hp, ho]
  · simp [hp]

variable {f : String × PendingEntry → String × PendingEntry}

/-- Changing entries without moving them. -/
lemma owner_map_of_eq (hf : ∀ p, (f p).1 = p.1 ∧ (f p).2.offset = p.2.offset) (pel : Pel) :
    owner (pel.map f) = pel.owner := by
  funext o
  unfold owner
  rw [find?_map, Option.map_map]
  congr 1
  · funext p
    exact (hf p).1
  · congr 1
    funext p
    simp [(hf p).2]

/-! ### Keeping a PEL in order -/

lemma Distinct.append (h : pel.Distinct) (hnew : pel.owner e.offset = none) :
    Distinct (pel ++ [(consumer, e)]) := by
  have hfresh : e.offset ∉ pel.map fun p => p.2.offset := by simpa using owner_eq_none_iff.1 hnew
  unfold Distinct
  rw [map_append, map_singleton, ← concat_eq_append]
  exact List.Nodup.concat hfresh h

lemma Filed.append (h : pel.Filed) (he : consumer = e.consumerId) :
    Filed (pel ++ [(consumer, e)]) := by
  intro p hp
  rcases mem_append.1 hp with hp | hp
  · exact h p hp
  · rw [mem_singleton.1 hp]
    exact he

lemma Distinct.filter (h : pel.Distinct) (q : String × PendingEntry → Bool) :
    Distinct (pel.filter q) :=
  h.sublist (filter_sublist.map _)

lemma Filed.filter (h : pel.Filed) (q : String × PendingEntry → Bool) : Filed (pel.filter q) :=
  fun p hp => h p (mem_filter.1 hp).1

lemma Distinct.map (h : pel.Distinct)
    (hf : ∀ p, (f p).2.offset = p.2.offset) : Distinct (pel.map f) := by
  simpa [Distinct, map_map, Function.comp_def, hf] using h

lemma Filed.map (h : pel.Filed)
    (hf : ∀ p, (f p).1 = p.1 ∧ (f p).2.consumerId = p.2.consumerId) : Filed (pel.map f) := by
  intro q hq
  obtain ⟨p, hp, rfl⟩ := mem_map.1 hq
  rw [(hf p).1, (hf p).2]
  exact h p hp

end Pel

/-! ### The methods of a group on a PEL with distinct offsets -/

namespace ConsumerGroup

variable {g : ConsumerGroup} {order : PelOrder} {offset : Nat}
  {consumer : String}

/-- `FindPending` names the owner, whatever the order of the walk. -/
lemma findPending_owner (h : g.pel.Distinct) :
    (g.findPending order offset).2 = (g.pel.owner offset).getD "" := by
  unfold findPending Pel.owner
  rw [find?_key_eq_of_perm h (order.perm g.pel)]
  cases g.pel.find? (fun p => p.2.offset == offset) <;> rfl

/-- No consumer is found to hold an offset that is not pending. -/
lemma findPending_of_owner_none (order : PelOrder)
    (h : g.pel.owner offset = none) : (g.findPending order offset).2 = "" := by
  have hfind : (order.walk g.pel).find? (fun p => p.2.offset == offset) = none := by
    rw [find?_eq_none]
    intro p hp
    simpa using Pel.owner_eq_none_iff.1 h p (order.mem_walk.1 hp)
  simp [findPending, hfind]

/-- An owner with a name comes with the entry at the offset. -/
lemma findPending_offset (h : (g.findPending order offset).2 ≠ "") :
    (g.findPending order offset).1.offset = offset := by
  unfold findPending at h ⊢
  split at h
  · rename_i p hfind
    simpa using find?_some hfind
  · exact absurd rfl h

/-- The entry at an offset can only be filed under its owner. -/
lemma isFiled_iff (h : g.pel.Distinct) (howner : g.pel.owner offset = some consumer)
    {p : String × PendingEntry} (hp : p ∈ g.pel) :
    isFiled consumer offset p ↔ p.2.offset = offset := by
  simp only [isFiled, Bool.and_eq_true, beq_iff_eq, and_iff_right_iff_imp]
  intro hoff
  obtain ⟨q, hq, hqoff, hqc⟩ := (Pel.owner_eq_some_iff h).1 howner
  have hpq : p = q := inj_on_of_nodup_map h hp hq (hoff.trans hqoff.symm)
  rw [hpq, hqc]

/-- Erasing the entry filed under the owner of an offset drops the offset. -/
lemma eraseP_eq_filter (h : g.pel.Distinct) (howner : g.pel.owner offset = some consumer) :
    g.pel.eraseP (isFiled consumer offset) = g.pel.filter fun p => p.2.offset != offset := by
  rw [eraseP_eq_filter_of_nodup h (q := isFiled consumer offset) (k := offset)]
  · refine filter_congr fun p hp => ?_
    have := isFiled_iff h howner hp
    cases hfiled : isFiled consumer offset p <;> simp_all
  · intro p hp
    simp only [isFiled, Bool.and_eq_true, beq_iff_eq] at hp
    exact hp.2

lemma not_isFiled_of_owner_none (howner : g.pel.owner offset = none) (consumer : String) :
    ∀ p ∈ g.pel, ¬ isFiled consumer offset p := by
  intro p hp hfiled
  simp only [isFiled, Bool.and_eq_true, beq_iff_eq] at hfiled
  exact Pel.owner_eq_none_iff.1 howner p hp hfiled.2

/-- `RemovePending` drops an offset exactly when it names its owner. -/
lemma removePending_eq (h : g.pel.Distinct) (consumer : String) :
    g.removePending consumer offset =
      if g.pel.owner offset = some consumer then
        g.replacePEL (g.pel.filter fun p => p.2.offset != offset)
      else g := by
  unfold removePending
  split
  · rename_i howner
    rw [eraseP_eq_filter h howner]
    rfl
  rename_i howner
  rw [eraseP_of_forall_not]
  intro p hp hfiled
  simp only [isFiled, Bool.and_eq_true, beq_iff_eq] at hfiled
  exact howner ((Pel.owner_eq_some_iff h).2 ⟨p, hp, hfiled.2, hfiled.1⟩)

/-- Every offset of the second PEL occurs in the first. -/
def OffsetsWithin (pel pel' : Pel) : Prop :=
  ∀ p ∈ pel', ∃ q ∈ pel, q.2.offset = p.2.offset

lemma offsetsWithin_removePending (consumer : String) (offset : Nat) :
    OffsetsWithin g.pel (g.removePending consumer offset).pel :=
  fun p hp => ⟨p, mem_of_mem_eraseP hp, rfl⟩

/-- `TransferPending` changes nothing but the PEL, and adds no offset to it. -/
lemma exists_transferPending (now : Time) (offset : Nat) (fromConsumer toConsumer : String) :
    ∃ pel, g.transferPending now offset fromConsumer toConsumer = g.replacePEL pel ∧
      OffsetsWithin g.pel pel := by
  unfold transferPending
  split
  · exact ⟨g.pel, rfl, fun p hp => ⟨p, hp, rfl⟩⟩
  rename_i q hfind
  refine ⟨_, rfl, fun p hp => ?_⟩
  rcases mem_append.1 hp with hp | hp
  · exact ⟨p, mem_of_mem_eraseP hp, rfl⟩
  · rw [mem_singleton.1 hp]
    exact ⟨q, mem_of_find?_eq_some hfind, rfl⟩

/-- `RequeuePending` changes nothing but the PEL, and adds no offset to it. -/
lemma exists_requeuePending (offset : Nat) (consumer : String) (attemptedAt : Time) :
    ∃ pel, (g.requeuePending offset consumer attemptedAt).1 = g.replacePEL pel ∧
      OffsetsWithin g.pel pel := by
  unfold requeuePending
  split
  · refine ⟨_, rfl, fun p hp => ?_⟩
    rcases mem_updateFirst hp with hp | ⟨q, hq, rfl⟩
    · exact ⟨p, hp, rfl⟩
    · exact ⟨q, hq, rfl⟩
  · exact ⟨g.pel, rfl, fun p hp => ⟨p, hp, rfl⟩⟩

/-- `TransferPending` from the owner of an offset refiles its entry. -/
lemma transferPending_pel (h : g.pel.Distinct) (howner : g.pel.owner offset = some consumer)
    (now : Time) (toConsumer : String) :
    ∃ e : PendingEntry, e.offset = offset ∧ e.consumerId = toConsumer ∧
      g.transferPending now offset consumer toConsumer =
        g.replacePEL ((g.pel.filter fun p => p.2.offset != offset) ++ [(toConsumer, e)]) := by
  obtain ⟨q, hq, hqoff, hqc⟩ := (Pel.owner_eq_some_iff h).1 howner
  unfold transferPending
  cases hfind : g.pel.find? (isFiled consumer offset) with
  | none =>
    have hno := find?_eq_none.1 hfind q hq
    simp [isFiled, hqoff, hqc] at hno
  | some p =>
    have hp : p.2.offset = offset := (isFiled_iff h howner (mem_of_find?_eq_some hfind)).1
      (find?_some hfind)
    refine ⟨{ p.2 with
      consumerId := toConsumer, claimedAt := now, deliveryCount := p.2.deliveryCount + 1 },
      hp, rfl, ?_⟩
    simp only [eraseP_eq_filter h howner, replacePEL]

lemma transferPending_eq_self (howner : g.pel.owner offset = none) (now : Time)
    (consumer toConsumer : String) : g.transferPending now offset consumer toConsumer = g := by
  unfold transferPending
  rw [find?_eq_none.2 (not_isFiled_of_owner_none howner consumer)]

/-- `RequeuePending` changes the lease of entries and nothing else. -/
lemma requeuePending_eq (h : g.pel.Distinct) (offset : Nat) (consumer : String)
    (attemptedAt : Time) :
    ∃ f : String × PendingEntry → String × PendingEntry,
      (∀ p, (f p).1 = p.1 ∧ (f p).2.offset = p.2.offset ∧ (f p).2.consumerId = p.2.consumerId) ∧
      (g.requeuePending offset consumer attemptedAt).1 = g.replacePEL (g.pel.map f) := by
  unfold requeuePending
  split
  · refine ⟨fun p => if isFiled consumer offset p then
        (p.1, { p.2 with claimedAt := attemptedAt }) else p, fun p => ?_, ?_⟩
    · by_cases hp : isFiled consumer offset p <;> simp [hp]
    simp only [replacePEL]
    rw [updateFirst_eq_map_of_nodup h (k := offset)]
    intro p hp
    simp only [isFiled, Bool.and_eq_true, beq_iff_eq] at hp
    exact hp.2
  · exact ⟨fun p => p, fun p => ⟨rfl, rfl, rfl⟩, by simp [replacePEL]⟩

end ConsumerGroup

end FluxMQ
