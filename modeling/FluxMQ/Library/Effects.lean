import Mathlib.Control.Lawful
import Mathlib.Order.Defs.Unbundled

/-!
# Rules for programs over a state

A program over a state of type `σ` is a term of `StateM σ α`. Two kinds of facts are stated of it.

* `Effects.Respects R f`: whatever the state, running `f` relates it by `R` to the state after. For
  a preorder `R`, such as "nothing recorded is forgotten", this passes through sequencing and loops.
* `Effects.Triple P f Q`: from a state with `P`, running `f` leads to a result and a state with `Q`.

The rules follow the way programs are built: `pure`, sequencing, and the loop `mapM`.
-/

namespace Effects

universe u

variable {σ α β : Type u}

/-! ### Relations between the state before and after -/

/-- Running the program relates the state before to the state after. -/
def Respects (R : σ → σ → Prop) (f : StateM σ α) : Prop :=
  ∀ s, R s (f s).2

section

variable {R : σ → σ → Prop} {f : StateM σ α} {g : α → StateM σ β} {l : List α}

theorem Respects.pure [Std.Refl R] (a : α) : Respects R (pure a : StateM σ α) :=
  fun s => Std.Refl.refl s

lemma Respects.bind [IsTrans σ R] (hf : Respects R f) (hg : ∀ a, Respects R (g a)) :
    Respects R (f >>= g) :=
  fun s => IsTrans.trans s (f s).2 _ (hf s) (hg (f s).1 (f s).2)

theorem Respects.mapM [Std.Refl R] [IsTrans σ R] (hg : ∀ a ∈ l, Respects R (g a)) :
    Respects R (l.mapM g) := by
  induction l with
  | nil => exact Respects.pure (R := R) []
  | cons a l ih =>
    rw [List.mapM_cons]
    refine (hg a List.mem_cons_self).bind fun b => Respects.bind ?_ fun bs => Respects.pure _
    exact ih fun a' ha' => hg a' (List.mem_cons_of_mem a ha')

end

/-! ### Preconditions and postconditions -/

/-- From a state with the precondition the program comes to a result and a state with the
postcondition. -/
def Triple (P : σ → Prop) (f : StateM σ α) (Q : α → σ → Prop) : Prop :=
  ∀ s, P s → Q (f s).1 (f s).2

section

variable {P : σ → Prop} {Q Q' : α → σ → Prop} {Q₂ : β → σ → Prop} {f : StateM σ α}
  {g : α → StateM σ β}

theorem Triple.pure {a : α} (h : ∀ s, P s → Q a s) : Triple P (pure a) Q := h

lemma Triple.bind (hf : Triple P f Q) (hg : ∀ a, Triple (Q a) (g a) Q₂) : Triple P (f >>= g) Q₂ :=
  fun s hs => hg (f s).1 (f s).2 (hf s hs)

lemma Triple.mono (h : Triple P f Q) (hQ : ∀ a s, Q a s → Q' a s) : Triple P f Q' :=
  fun s hs => hQ _ _ (h s hs)

/-- A precondition that is partly a fact on its own. -/
lemma Triple.assuming {p : Prop} (h : p → Triple P f Q) : Triple (fun s => P s ∧ p) f Q :=
  fun s hs => h hs.2 s hs.1

/-- A loop in which each turn keeps the invariant and leaves a fact about its result that no later
turn undoes. -/
theorem Triple.mapM {R : σ → σ → Prop} [Std.Refl R] [IsTrans σ R] {F : α → β → σ → Prop}
    {l : List α} (hrespects : ∀ a ∈ l, Respects R (g a))
    (hmono : ∀ a b s s', R s s' → F a b s → F a b s')
    (hg : ∀ a ∈ l, Triple P (g a) fun b s => P s ∧ F a b s) :
    Triple P (l.mapM g) fun bs s =>
      P s ∧ (∀ a ∈ l, ∃ b ∈ bs, F a b s) ∧ ∀ b ∈ bs, ∃ a ∈ l, F a b s := by
  induction l with
  | nil => exact Triple.pure fun s hs => ⟨hs, nofun, nofun⟩
  | cons a l ih =>
    have hmem : ∀ {a'}, a' ∈ l → a' ∈ a :: l := List.mem_cons_of_mem a
    rw [List.mapM_cons]
    intro s hs
    obtain ⟨hP, hF⟩ := hg a List.mem_cons_self s hs
    obtain ⟨hP', hturns, hresults⟩ := ih (fun a' ha' => hrespects a' (hmem ha'))
      (fun a' ha' => hg a' (hmem ha')) _ hP
    -- The fact of the first turn outlives the others.
    have hlater := Respects.mapM (l := l) (fun a' ha' => hrespects a' (hmem ha')) (g a s).2
    have hkept := hmono _ _ _ _ hlater hF
    refine ⟨hP', fun a' ha' => ?_, fun b hb => ?_⟩
    · rcases List.mem_cons.1 ha' with rfl | ha'
      · exact ⟨_, List.mem_cons_self, hkept⟩
      · obtain ⟨b, hb, hfact⟩ := hturns a' ha'
        exact ⟨b, List.mem_cons_of_mem _ hb, hfact⟩
    · rcases List.mem_cons.1 hb with rfl | hb
      · exact ⟨a, List.mem_cons_self, hkept⟩
      · obtain ⟨a', ha', hfact⟩ := hresults b hb
        exact ⟨a', hmem ha', hfact⟩

/-- A loop in which each turn keeps the invariant and leaves a fact about its result alone. -/
lemma Triple.mapM_pure {F : α → β → Prop} {l : List α}
    (hg : ∀ a ∈ l, Triple P (g a) fun b s => P s ∧ F a b) :
    Triple P (l.mapM g) fun bs s =>
      P s ∧ (∀ a ∈ l, ∃ b ∈ bs, F a b) ∧ ∀ b ∈ bs, ∃ a ∈ l, F a b := by
  have : Std.Refl fun _ _ : σ => True := ⟨fun _ => trivial⟩
  have : IsTrans σ fun _ _ => True := ⟨fun _ _ _ _ _ => trivial⟩
  exact Triple.mapM (R := fun _ _ => True) (F := fun a b _ => F a b) (fun _ _ _ => trivial)
    (fun _ _ _ _ _ h => h) hg

end

end Effects
