import Mathlib.Data.List.Basic
import Mathlib.Algebra.Order.Ring.Int

/-!
# Runs of a deterministic transition system

A transition system is given by its step function `step : σ → α → σ`, where the action carries
every choice the environment makes. Nothing here depends on what the states and actions are.

* `Transition.run`: the state a list of actions leads to.
* `Transition.Along`: every action of a run meets a condition in the state it is performed in.
* `Transition.Reaches`: some run whose actions all meet the condition leads from one state to
  another.
* `Transition.invariant_run` and `Transition.invariant_reaches`: the induction over a run, packaged
  once.
* `Transition.rel_run`: the same for a relation between two runs.
* `Transition.Follows`: a replica has performed a first part of a shared log.
-/

namespace Transition

variable {σ τ α β : Type*}

/-- The state reached from `s` by performing `actions` one after the other. -/
def run (step : σ → α → σ) (s : σ) (actions : List α) : σ :=
  actions.foldl step s

/-- Every action of the run meets `P` in the state it is performed in. -/
def Along (step : σ → α → σ) (P : σ → α → Prop) : σ → List α → Prop
  | _, [] => True
  | s, a :: actions => P s a ∧ Along step P (step s a) actions

/-- Whether a run meets a decidable condition is decidable. -/
instance decidableAlong (step : σ → α → σ) (P : σ → α → Prop) [∀ s a, Decidable (P s a)] :
    ∀ s actions, Decidable (Along step P s actions)
  | _, [] => isTrue trivial
  | s, a :: actions =>
    have : Decidable (Along step P (step s a) actions) := decidableAlong step P _ actions
    inferInstanceAs (Decidable (P s a ∧ Along step P (step s a) actions))

/-- Some run whose actions all meet `P` leads from `s` to `t`. -/
def Reaches (step : σ → α → σ) (P : σ → α → Prop) (s t : σ) : Prop :=
  ∃ actions, Along step P s actions ∧ run step s actions = t

section

variable {step : σ → α → σ} {P Q : σ → α → Prop} {s t u : σ} {actions more : List α}

@[simp]
lemma run_nil : run step s [] = s := rfl

@[simp]
lemma run_cons {a : α} : run step s (a :: actions) = run step (step s a) actions := rfl

lemma run_append : run step s (actions ++ more) = run step (run step s actions) more := by
  simp [run]

@[simp]
lemma along_nil : Along step P s [] := trivial

@[simp]
lemma along_cons {a : α} :
    Along step P s (a :: actions) ↔ P s a ∧ Along step P (step s a) actions := Iff.rfl

lemma along_append : Along step P s (actions ++ more) ↔
    Along step P s actions ∧ Along step P (run step s actions) more := by
  induction actions generalizing s with
  | nil => simp
  | cons a actions ih => simp [ih, and_assoc]

lemma Along.mono (hPQ : ∀ s a, P s a → Q s a) (h : Along step P s actions) :
    Along step Q s actions := by
  induction actions generalizing s with
  | nil => trivial
  | cons a actions ih => exact ⟨hPQ _ _ h.1, ih h.2⟩

/-- The condition that holds of every action makes no demand on a run. -/
lemma along_of_forall (h : ∀ a ∈ actions, ∀ s, P s a) : Along step P s actions := by
  induction actions generalizing s with
  | nil => trivial
  | cons a actions ih =>
    exact ⟨h a List.mem_cons_self s, ih fun b hb => h b (List.mem_cons_of_mem a hb)⟩

/-- Actions of one kind that are always admissible. -/
lemma along_map {f : β → α} (h : ∀ s b, P s (f b)) {choices : List β} :
    Along step P s (choices.map f) := by
  induction choices generalizing s with
  | nil => trivial
  | cons b choices ih => exact ⟨h _ _, ih⟩

variable {I : σ → Prop}

/-- An invariant that every admissible step preserves holds at the end of every run whose steps
are admissible. -/
theorem invariant_run (hstep : ∀ s a, I s → P s a → I (step s a))
    (hs : I s) (h : Along step P s actions) : I (run step s actions) := by
  induction actions generalizing s with
  | nil => exact hs
  | cons a actions ih => exact ih (hstep _ _ hs h.1) h.2

/-- Under an invariant of the admissible steps, what the invariant implies of each admissible step
holds along every run of them. -/
lemma Along.of_invariant (hstep : ∀ s a, I s → P s a → I (step s a))
    (hQ : ∀ s a, I s → P s a → Q s a) (hs : I s) (h : Along step P s actions) :
    Along step Q s actions := by
  induction actions generalizing s with
  | nil => trivial
  | cons a actions ih => exact ⟨hQ _ _ hs h.1, ih (hstep _ _ hs h.1) h.2⟩

lemma Reaches.refl (step : σ → α → σ) (P : σ → α → Prop) (s : σ) : Reaches step P s s :=
  ⟨[], trivial, rfl⟩

lemma Reaches.of_eq (h : t = s) : Reaches step P s t := h ▸ Reaches.refl step P s

lemma Reaches.single {a : α} (h : P s a) : Reaches step P s (step s a) := ⟨[a], ⟨h, trivial⟩, rfl⟩

lemma Reaches.trans (hst : Reaches step P s t) (htu : Reaches step P t u) : Reaches step P s u := by
  obtain ⟨actions, hactions, rfl⟩ := hst
  obtain ⟨more, hmore, rfl⟩ := htu
  exact ⟨actions ++ more, along_append.2 ⟨hactions, hmore⟩, run_append⟩

lemma Reaches.mono (hPQ : ∀ s a, P s a → Q s a) (h : Reaches step P s t) : Reaches step Q s t := by
  obtain ⟨actions, hactions, rfl⟩ := h
  exact ⟨actions, hactions.mono hPQ, rfl⟩

/-- An invariant of the admissible steps is inherited by every state they reach. -/
theorem invariant_reaches
    (hstep : ∀ s a, I s → P s a → I (step s a)) (hs : I s) (h : Reaches step P s t) : I t := by
  obtain ⟨actions, hactions, rfl⟩ := h
  exact invariant_run hstep hs hactions

end

/-- Two runs side by side, of systems that may differ in what they read: a relation that every pair
of steps keeps holds at the end. The conditions are on the steps of each run. -/
theorem rel_run {γ : Type*} {step : σ → α → σ} {step' : τ → β → τ} {P : σ → α → Prop}
    {Q : τ → β → Prop} {R : σ → τ → Prop} {left : γ → α} {right : γ → β} {s : σ} {t : τ}
    {choices : List γ}
    (hstep : ∀ s t c, R s t → P s (left c) → Q t (right c) →
      R (step s (left c)) (step' t (right c)))
    (hst : R s t) (h : Along step P s (choices.map left)) (h' : Along step' Q t (choices.map right)) :
    R (run step s (choices.map left)) (run step' t (choices.map right)) := by
  induction choices generalizing s t with
  | nil => exact hst
  | cons c choices ih => exact ih (hstep _ _ _ hst h.1 h'.1) h.2 h'.2

/-! ### Replicas of a log -/

section

variable {ρ ω : Type*} {step : σ → ρ × ω → σ} {start s : σ} {log : List ω} {n : Nat}

/-- The state is what the first `n` operations of a log make of `start`, each performed with what
the replica read from its surroundings. -/
def Follows (step : σ → ρ × ω → σ) (start : σ) (log : List ω) (n : Nat) (s : σ) : Prop :=
  n ≤ log.length ∧
    ∃ entries : List (ρ × ω), entries.map Prod.snd = log.take n ∧ run step start entries = s

lemma Follows.refl (step : σ → ρ × ω → σ) (s : σ) (log : List ω) : Follows step s log 0 s :=
  ⟨Nat.zero_le _, [], rfl, rfl⟩

/-- A replica does not see what is added to the log. -/
lemma Follows.append (h : Follows step start log n s) (more : List ω) :
    Follows step start (log ++ more) n s := by
  obtain ⟨hle, entries, hentries, hrun⟩ := h
  refine ⟨?_, entries, ?_, hrun⟩
  · rw [List.length_append]
    omega
  · rw [hentries, List.take_append_of_le_length hle]

/-- A replica performs the next operation of the log. -/
lemma Follows.next (h : Follows step start log n s) {op : ω} (hop : log[n]? = some op) (r : ρ) :
    Follows step start log (n + 1) (step s (r, op)) := by
  obtain ⟨-, entries, hentries, rfl⟩ := h
  refine ⟨(List.getElem?_eq_some_iff.1 hop).1, entries ++ [(r, op)], ?_, run_append⟩
  rw [List.map_append, hentries, List.take_add_one, hop]
  rfl

end

end Transition
