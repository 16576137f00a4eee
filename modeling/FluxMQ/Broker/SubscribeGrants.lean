import FluxMQ.Topics.Match

/-!
# Subscribe grants of local principals

An entry of the access list in `config/config.go` names a queue, or is a pattern for the names of queues.
The levels of both are separated by dots.

* `matchLocalSubscribeQueue_iff`: an entry that is accepted grants the queues whose levels it covers, and
  a wider one grants them, too.
* `narrowed`: `+` is not wider than `#`.
-/

namespace FluxMQ.Topics.LocalAuth

open Levels List

def normalizeLocalSubscribeEntry (entry : List Char) : List Char :=
  entry.map fun c => if c = '*' then '+' else c

def matchLocalSubscribeQueue (pattern queue : List Char) : Bool :=
  if pattern = [] ∨ queue = [] then false
  else if pattern = queue then true
  else matchLoop '.' pattern queue false

/-- The loop of `validateLocalSubscribeEntry`. -/
def validateLevels : List Level → Except String Unit
  | [] => .ok ()
  | level :: levels =>
    if '#' ∈ level ∧ (level ≠ ['#'] ∨ levels ≠ []) then .error "\"#\" must be the entire final level"
    else if '+' ∈ level ∧ level ≠ ['+'] then .error "\"+\" must be an entire level"
    else validateLevels levels

def validateLocalSubscribeEntry (normalized : List Char) : Except String Unit :=
  validateLevels (normalized.splitOn '.')

lemma validLevels_of_ok {levels : List Level} (h : validateLevels levels = .ok ()) :
    validLevels levels = true := by
  induction levels with
  | nil => rfl
  | cons level levels ih =>
    unfold validateLevels at h
    split_ifs at h with hmulti hsingle
    have hrest := ih h
    cases levels with
    | nil => grind [validLevels, validLevel]
    | cons next levels => grind [validLevels, validLevel]

/-- The loop is only entered with two texts, but it agrees with the levels of any. -/
lemma matchLocalSubscribeQueue_eq {pattern queue : List Char} (h : queue ≠ []) :
    matchLocalSubscribeQueue pattern queue = matchLevels (queue.splitOn '.') (pattern.splitOn '.') := by
  unfold matchLocalSubscribeQueue
  split_ifs with hempty hsame
  · obtain rfl := hempty.resolve_right h
    -- The empty text has one level, which is empty.
    rw [eq_comm, Bool.eq_false_iff]
    intro hmatch
    have hone : queue.splitOn '.' = [].splitOn '.' := by
      cases hlevels : queue.splitOn '.' with
      | nil => simp [hlevels] at hmatch
      | cons level levels => simp_all
    exact h (splitOn_injective hone)
  · rw [hsame, matchLevels_self]
  · exact matchLoop_eq

section

variable {queue levels : List Level} (i : Nat)

lemma matchLevels_set (h : matchLevels queue levels = true) (hi : levels[i]? ≠ some ['#']) :
    matchLevels queue (levels.set i ['+']) = true := by
  induction levels generalizing queue i with
  | nil => exact h
  | cons level levels ih =>
    by_cases hmulti : level = ['#']
    · subst hmulti
      cases i with
      | zero => exact absurd rfl hi
      | succ i => simp
    cases queue with
    | nil => simp [hmulti] at h
    | cons queueLevel queue =>
      cases i with
      | zero => simp_all
      | succ i => simp_all

lemma matchLevels_take (h : matchLevels queue levels = true) :
    matchLevels queue (levels.take i ++ [['#']]) = true := by
  induction levels generalizing queue i with
  | nil => simp
  | cons level levels ih =>
    cases i with
    | zero => simp
    | succ i =>
      cases queue with
      | nil => simp_all
      | cons queueLevel queue =>
        simp only [take_succ_cons, cons_append, matchLevels] at h ⊢
        split_ifs at h ⊢ <;> simp_all

end

/-- An entry grants the queues that its levels cover: `+` covers any level, and a `#` at the end any that
follow. An entry that has `+` in the place of another level, or `#` in the place of the last ones, grants
them as well. -/
theorem matchLocalSubscribeQueue_iff (entry queue : List Char) (hqueue : queue ≠ [])
    (hvalid : validateLocalSubscribeEntry (normalizeLocalSubscribeEntry entry) = .ok ()) :
    let pattern := normalizeLocalSubscribeEntry entry
    let levels := pattern.splitOn '.'
    (matchLocalSubscribeQueue pattern queue = true ↔
      Trie.Covers ['+'] ['#'] levels (queue.splitOn '.') ∨ pattern = queue) ∧
    ∀ i wider, matchLocalSubscribeQueue pattern queue = true →
      (levels[i]? ≠ some ['#'] ∧ wider.splitOn '.' = levels.set i ['+'] ∨
        wider.splitOn '.' = levels.take i ++ [['#']]) → matchLocalSubscribeQueue wider queue = true := by
  simp only [matchLocalSubscribeQueue_eq hqueue]
  refine ⟨?_, fun i wider hgranted hwider => ?_⟩
  · rw [matchLevels_iff_covers (validLevels_of_ok hvalid), or_iff_left_of_imp]
    rintro rfl
    exact (matchLevels_iff_covers (validLevels_of_ok hvalid)).1 matchLevels_self
  · rcases hwider with ⟨hi, hwider⟩ | hwider
    · rw [hwider]
      exact matchLevels_set i hgranted hi
    · rw [hwider]
      exact matchLevels_take i hgranted

theorem matchLocalSubscribeQueue_iff_wider :
    matchLocalSubscribeQueue (normalizeLocalSubscribeEntry "m.*.e".toList) "m.a.e".toList = true ∧
      matchLocalSubscribeQueue "m.#".toList "m.a.e".toList = true := by
  obtain ⟨hiff, hwider⟩ := matchLocalSubscribeQueue_iff "m.*.e".toList "m.a.e".toList (by decide)
    (by decide +kernel)
  have hgranted := hiff.2 (.inl (.inr ⟨.inl rfl, .inr ⟨.inr rfl, .inr ⟨.inl rfl, rfl⟩⟩⟩))
  exact ⟨hgranted, hwider 1 _ hgranted (.inr (by decide +kernel))⟩

/-- The `#` at the end of an entry is a level, and `+` in its place grants less. -/
theorem narrowed : validateLocalSubscribeEntry "a.#".toList = .ok () ∧
    "a.+".toList.splitOn '.' = ("a.#".toList.splitOn '.').set 1 ['+'] ∧
    matchLocalSubscribeQueue "a.#".toList "a".toList = true ∧
    matchLocalSubscribeQueue "a.+".toList "a".toList = false := by
  decide +kernel

end FluxMQ.Topics.LocalAuth
