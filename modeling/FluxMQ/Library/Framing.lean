import Mathlib.Data.List.Basic

/-!
# Frames that carry a check

A text is a row of frames. Whether one stands at the front of a text, and how long it is, is told by a
function `size`, which looks at the frame only. Nothing here depends on what the check is.

* `Framing.Framed`: the text is a row of frames.
* `Framing.whole`: the longest such text at the front of another one (`isLongest_whole`), which a scan
  frame by frame finds.
* `Framing.Detects`: damage to a row of frames that the check finds. What is left is then a first part
  of the row (`whole_prefix_of_detects`). A cut is always found (`detects_of_prefix`).
-/

/-- How long the frame at the front of a text is, if there is one. -/
structure Framing (σ : Type) where
  size : List σ → Option Nat
  pos : ∀ {text n}, size text = some n → 0 < n
  le_length : ∀ {text n}, size text = some n → n ≤ text.length
  /-- What follows a frame does not matter. -/
  size_take_append : ∀ {text n} more, size text = some n → size (text.take n ++ more) = some n

namespace Framing

open List

variable {σ : Type} (F : Framing σ) {text more frame rest p q : List σ} {n : Nat}

/-- A single frame. -/
def IsFrame (frame : List σ) : Prop := F.size frame = some frame.length

/-- A row of frames. -/
inductive Framed : List σ → Prop
  | nil : Framed []
  | cons {frame rest : List σ} : F.IsFrame frame → Framed rest → Framed (frame ++ rest)

/-- The length of the frames at the front, at most so many of them. -/
def wholeLength : (fuel : Nat) → List σ → Nat
  | 0, _ => 0
  | fuel + 1, text =>
    match F.size text with
    | none => 0
    | some n => n + wholeLength fuel (text.drop n)

/-- The frames at the front. -/
def whole (text : List σ) : List σ := text.take (F.wholeLength text.length text)

variable {F}

lemma isFrame_take (h : F.size text = some n) : F.IsFrame (text.take n) := by
  have htake := F.size_take_append [] h
  rw [append_nil] at htake
  rw [IsFrame, htake, length_take, Nat.min_eq_left (F.le_length h)]

lemma IsFrame.size_append (h : F.IsFrame frame) (more : List σ) :
    F.size (frame ++ more) = some frame.length := by
  have happend := F.size_take_append more h
  rwa [take_length] at happend

lemma IsFrame.size_of_prefix (h : F.IsFrame frame) (hpre : frame <+: text) :
    F.size text = some frame.length := by
  obtain ⟨more, rfl⟩ := hpre
  exact h.size_append more

/-- Two frames at the front of one text are one. -/
lemma IsFrame.unique {frame' : List σ} (h : F.IsFrame frame) (h' : F.IsFrame frame')
    (hpre : frame <+: text) (hpre' : frame' <+: text) : frame = frame' := by
  have hlength := Option.some.inj ((h.size_of_prefix hpre).symm.trans (h'.size_of_prefix hpre'))
  rw [prefix_iff_eq_take.mp hpre, prefix_iff_eq_take.mp hpre', hlength]

lemma IsFrame.framed (h : F.IsFrame frame) : F.Framed frame := by
  have hframe := Framed.cons h Framed.nil
  rwa [append_nil] at hframe

lemma Framed.append (hp : F.Framed p) (hq : F.Framed q) : F.Framed (p ++ q) := by
  induction hp with
  | nil => exact hq
  | cons hframe hrest ih =>
    rw [append_assoc]
    exact .cons hframe ih

/-! ### The longest row of frames -/

lemma framed_take_wholeLength (fuel : Nat) (text : List σ) :
    F.Framed (text.take (F.wholeLength fuel text)) := by
  induction fuel generalizing text with
  | zero =>
    exact .nil
  | succ fuel ih =>
    rw [wholeLength]
    split
    · exact .nil
    · rename_i n hsize
      rw [take_add]
      exact .cons (isFrame_take hsize) (ih _)

/-- A scan does not stop within a row of frames. -/
lemma Framed.length_le (hp : F.Framed p) (hpre : p <+: text) {fuel : Nat} (hfuel : text.length ≤ fuel) :
    p.length ≤ F.wholeLength fuel text := by
  induction hp generalizing text fuel with
  | nil => exact Nat.zero_le _
  | @cons frame rest hframe hrest ih =>
    obtain ⟨more, rfl⟩ := hpre
    rw [append_assoc] at hfuel ⊢
    have hsize := hframe.size_append (rest ++ more)
    have hpos := F.pos hsize
    rw [length_append] at hfuel
    obtain ⟨fuel, rfl⟩ : ∃ m, fuel = m + 1 := ⟨fuel - 1, by omega⟩
    have hfuel' : (rest ++ more).length ≤ fuel := by omega
    have hmore := ih (prefix_append rest more) hfuel'
    rw [wholeLength, hsize]
    simp only [drop_left, length_append]
    omega

/-- The frames at the front are the longest row of frames there. -/
structure IsLongest (F : Framing σ) (text whole : List σ) : Prop where
  framed : F.Framed whole
  isPrefix : whole <+: text
  longest : ∀ p, F.Framed p → p <+: text → p <+: whole

theorem isLongest_whole (text : List σ) : F.IsLongest text (F.whole text) where
  framed := framed_take_wholeLength _ _
  isPrefix := take_prefix _ _
  longest := by
    intro p hp hpre
    have hlength := hp.length_le hpre (Nat.le_refl _)
    rw [prefix_iff_eq_take.mp hpre, whole]
    exact take_prefix_take_left hlength

/-- Nothing is cut off a row of frames. -/
lemma Framed.whole_eq (h : F.Framed text) : F.whole text = text :=
  (isLongest_whole text).isPrefix.eq_of_length_le
    ((isLongest_whole text).longest text h (prefix_refl text)).length_le

lemma whole_whole (text : List σ) : F.whole (F.whole text) = F.whole text :=
  (isLongest_whole text).framed.whole_eq

/-! ### Damage -/

/-- The check finds the damage: where the frames of the original still stand, what passes for a frame
behind them is the next frame of the original. -/
def Detects (F : Framing σ) (original damaged : List σ) : Prop :=
  ∀ p rest n, F.Framed p → p <+: original → damaged = p ++ rest → F.size rest = some n →
    p ++ rest.take n <+: original

/-- A cut is found wherever it is. -/
theorem detects_of_prefix {original damaged : List σ} (h : damaged <+: original) :
    F.Detects original damaged := by
  rintro p rest n - - rfl -
  exact ((prefix_append_right_inj p).mpr (List.take_prefix n rest)).trans h

/-- What is left of a row of frames after damage is a first part of it. -/
theorem whole_prefix_of_detects {original damaged : List σ} (h : F.Detects original damaged) :
    F.whole damaged <+: original := by
  have hscan (fuel : Nat) (p rest : List σ) (hp : F.Framed p) (hpre : p <+: original)
      (hdamaged : damaged = p ++ rest) : p ++ rest.take (F.wholeLength fuel rest) <+: original := by
    induction fuel generalizing p rest with
    | zero =>
      rw [wholeLength, take_zero, append_nil]
      exact hpre
    | succ fuel ih =>
      rw [wholeLength]
      split
      · rw [take_zero, append_nil]
        exact hpre
      rename_i n hsize
      rw [take_add, ← append_assoc]
      refine ih (p ++ rest.take n) (rest.drop n) (hp.append (isFrame_take hsize).framed)
        (h p rest n hp hpre hdamaged hsize) ?_
      rw [append_assoc, take_append_drop, hdamaged]
  have hall := hscan damaged.length [] damaged .nil (List.nil_prefix) rfl
  rwa [nil_append] at hall

end Framing
