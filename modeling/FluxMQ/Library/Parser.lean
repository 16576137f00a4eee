import Mathlib.Data.List.Basic

/-!
# Parsers that read a value off the front of a text

Nothing here depends on what the symbols and values are.

* `Parser.Reads`: the parser takes a text, whatever follows it, for a value.
* `Parser.ReadsBefore`: the same when a symbol of some kind follows, which is left to be read.
* `Parser.Stable`: what a parser has read does not change when more text arrives.
* `Parser.take_eq_none`: a stable parser that reads a text reads nothing from a part of it.
* `Parser.raw`, `Parser.times`: so many symbols, and so many items.
* `Parser.Fixed`: a parser that reads a fixed number of symbols.
* `Parser.items`: a run of items of which the last one says so.
* `Parser.reads_listed`: a list with separators and a closing symbol is read back.
-/

/-- A parser reads a value off the front of a text and returns what is left, or fails. -/
abbrev Parser (σ α : Type*) := List σ → Option (α × List σ)

namespace Parser

open List

variable {σ α β : Type*}

/-- Read nothing. -/
def yield (a : α) : Parser σ α := fun text => some (a, text)

/-- Fail. -/
def fail : Parser σ α := fun _ => none

/-- Read with one parser, then with one that depends on the value. -/
def andThen (p : Parser σ α) (f : α → Parser σ β) : Parser σ β := fun text =>
  match p text with
  | none => none
  | some (a, rest) => f a rest

/-- Read one symbol. -/
def symbol : Parser σ σ
  | [] => none
  | x :: rest => some (x, rest)

/-- Read a given text. -/
def literal [DecidableEq σ] : List σ → Parser σ Unit
  | [] => yield ()
  | x :: xs => symbol.andThen fun y => if y = x then literal xs else fail

/-- Read so many symbols. -/
def raw (n : Nat) : Parser σ (List σ) := fun text =>
  if text.length < n then none else some (text.take n, text.drop n)

/-- Read so many items. -/
def times (p : Parser σ α) : Nat → Parser σ (List α)
  | 0 => yield []
  | n + 1 => p.andThen fun a => (times p n).andThen fun as => yield (a :: as)

/-- Read items until one is the last, at most so many. -/
def itemsUpTo (p : Parser σ (α × Bool)) : Nat → Parser σ (List α)
  | 0 => fail
  | fuel + 1 => p.andThen fun item =>
    if item.2 then yield [item.1]
    else (itemsUpTo p fuel).andThen fun rest => yield (item.1 :: rest)

/-- Read items until one is the last. Every item takes some text, so that there are not more items
than symbols. -/
def items (p : Parser σ (α × Bool)) : Parser σ (List α) := fun text =>
  itemsUpTo p text.length text

/-- A value, and whether the symbol after it is the closing one or the separator. -/
def delimited [DecidableEq σ] (separator close : σ) (p : Parser σ α) : Parser σ (α × Bool) :=
  p.andThen fun a => symbol.andThen fun c =>
    if c = separator then yield (a, false) else if c = close then yield (a, true) else fail

/-- The items of a list with separators between them and a closing symbol at the end. -/
def listed (separator close : σ) (print : α → List σ) : List α → List σ
  | [] => []
  | [a] => print a ++ [close]
  | a :: rest => print a ++ separator :: listed separator close print rest

/-! ### What a parser reads -/

/-- The parser takes the text for the value, whatever follows. -/
def Reads (p : Parser σ α) (text : List σ) (a : α) : Prop :=
  ∀ rest, p (text ++ rest) = some (a, rest)

/-- The parser takes the text for the value before every symbol that meets a condition. -/
def ReadsBefore (ok : σ → Prop) (p : Parser σ α) (text : List σ) (a : α) : Prop :=
  ∀ c rest, ok c → p (text ++ c :: rest) = some (a, c :: rest)

variable {p : Parser σ α} {f : α → Parser σ β} {text more : List σ} {a : α} {b : β}

lemma reads_yield : Reads (yield a : Parser σ α) [] a := fun _ => rfl

lemma Reads.andThen (hp : Reads p text a) (hf : Reads (f a) more b) :
    Reads (p.andThen f) (text ++ more) b := by
  intro rest
  rw [append_assoc, Parser.andThen, hp]
  exact hf rest

lemma reads_symbol (x : σ) : Reads symbol [x] x := fun _ => rfl

lemma reads_literal [DecidableEq σ] (text : List σ) : Reads (literal text) text () := by
  induction text with
  | nil => exact reads_yield
  | cons x xs ih =>
    refine Reads.andThen (reads_symbol x) ?_
    simpa using ih

lemma reads_raw (text : List σ) : Reads (raw text.length) text text := by
  intro rest
  simp [raw]

/-- So many items are read one after the other. -/
lemma reads_times {ι : Type*} {print : ι → List σ} {value : ι → α} (is : List ι)
    (hp : ∀ i ∈ is, Reads p (print i) (value i)) :
    Reads (times p is.length) (is.flatMap print) (is.map value) := by
  induction is with
  | nil => exact reads_yield
  | cons i is ih =>
    have hrest := ih fun j hj => hp j (mem_cons_of_mem i hj)
    have hitems : Reads ((times p is.length).andThen fun as => yield (value i :: as))
        (is.flatMap print ++ []) (value i :: is.map value) := hrest.andThen reads_yield
    rw [append_nil] at hitems
    exact (hp i mem_cons_self).andThen hitems

lemma length_of_times {n : Nat} {as : List α} {rest : List σ}
    (h : times p n text = some (as, rest)) : as.length = n := by
  induction n generalizing text as rest with
  | zero =>
    cases h
    rfl
  | succ n ih =>
    unfold times Parser.andThen at h
    cases hread : p text with
    | none => simp [hread] at h
    | some read =>
      obtain ⟨a, left⟩ := read
      simp only [hread] at h
      cases hmore : times p n left with
      | none => simp [hmore] at h
      | some tail =>
        rw [hmore] at h
        cases h
        rw [length_cons, ih hmore]

variable {ok : σ → Prop}

lemma Reads.before (hp : Reads p text a) : ReadsBefore ok p text a :=
  fun c rest _ => hp (c :: rest)

lemma ReadsBefore.andThen_yield (hp : ReadsBefore ok p text a) (g : α → β) :
    ReadsBefore ok (p.andThen fun a => yield (g a)) text (g a) := by
  intro c rest hc
  rw [Parser.andThen, hp c rest hc]
  rfl

variable {separator close : σ}

/-- A value that can be read before the separator and the closing symbol. -/
lemma ReadsBefore.delimited [DecidableEq σ]
    (hp : ReadsBefore ok p text a) (hseparator : ok separator) (hclose : ok close)
    (hne : close ≠ separator) (last : Bool) :
    Reads (p.delimited separator close) (text ++ [if last then close else separator])
      (a, last) := by
  intro rest
  rw [append_assoc, singleton_append, Parser.delimited, Parser.andThen,
    hp _ rest (by cases last <;> assumption)]
  cases last with
  | false => simp [Parser.andThen, symbol, yield]
  | true => simp [Parser.andThen, symbol, yield, hne]

section

variable {ι : Type*} {q : Parser σ (α × Bool)} {print : ι → List σ} {value : ι → α}
  (hq : ∀ i, Reads q (print i) (value i, false)) (hlast : Reads q text (a, true))
include hq hlast

/-- A text of several items is read item by item. -/
lemma reads_itemsUpTo (before : List ι) {fuel : Nat} (hfuel : before.length < fuel) :
    Reads (itemsUpTo q fuel) (before.flatMap print ++ text) (before.map value ++ [a]) := by
  induction before generalizing fuel with
  | nil =>
    obtain ⟨fuel, rfl⟩ : ∃ m, fuel = m + 1 := ⟨fuel - 1, by simp at hfuel; omega⟩
    intro rest
    rw [flatMap_nil, nil_append, itemsUpTo, Parser.andThen, hlast]
    rfl
  | cons i before ih =>
    obtain ⟨fuel, rfl⟩ : ∃ m, fuel = m + 1 := ⟨fuel - 1, by simp at hfuel; omega⟩
    intro rest
    rw [flatMap_cons, append_assoc, append_assoc, itemsUpTo, Parser.andThen, hq]
    have hrest := ih (by simpa using hfuel) rest
    rw [append_assoc] at hrest
    simp only [Bool.false_eq_true, if_false, Parser.andThen, hrest]
    rfl

lemma reads_items (hprint : ∀ i, print i ≠ []) (htext : text ≠ []) (before : List ι) :
    Reads (items q) (before.flatMap print ++ text) (before.map value ++ [a]) := by
  intro rest
  refine reads_itemsUpTo hq hlast before ?_ rest
  -- Every item takes at least one symbol.
  have hbefore : before.length ≤ (before.flatMap print).length := by
    induction before with
    | nil => simp
    | cons i before ih =>
      have := length_pos_iff.2 (hprint i)
      simp only [flatMap_cons, length_append, length_cons]
      omega
  have hpos := length_pos_iff.2 htext
  simp only [length_append]
  omega

end

lemma listed_append_singleton (separator close : σ) (print : α → List σ) (before : List α)
    (last : α) : listed separator close print (before ++ [last]) =
      before.flatMap (fun a => print a ++ [separator]) ++ (print last ++ [close]) := by
  induction before with
  | nil => rfl
  | cons a before ih =>
    have hcons : listed separator close print (a :: (before ++ [last])) =
        print a ++ separator :: listed separator close print (before ++ [last]) := by
      cases before <;> rfl
    rw [cons_append, hcons, ih]
    simp

/-- A list is read back if its items can be read before the separator and the closing symbol. -/
theorem reads_listed [DecidableEq σ] {print : α → List σ}
    (hp : ∀ a, ReadsBefore ok p (print a) a) (hseparator : ok separator) (hclose : ok close)
    (hne : close ≠ separator) {as : List α} (has : as ≠ []) :
    Reads (items (p.delimited separator close)) (listed separator close print as) as := by
  obtain ⟨before, last, rfl⟩ := eq_nil_or_concat as |>.resolve_left has
  rw [concat_eq_append, listed_append_singleton]
  have hread : ∀ a last, Reads (p.delimited separator close)
      (print a ++ [if last then close else separator]) (a, last) := fun a last =>
    (hp a).delimited hseparator hclose hne last
  have hlist : Reads (items (p.delimited separator close))
      (before.flatMap (fun a => print a ++ [separator]) ++ (print last ++ [close]))
      (before.map id ++ [last]) :=
    reads_items (fun a => hread a false) (hread last true) (by simp) (by simp) before
  simpa using hlist

/-! ### More text -/

/-- What the parser has read stays read when more text arrives. -/
def Stable (p : Parser σ α) : Prop :=
  ∀ text a rest more, p text = some (a, rest) → p (text ++ more) = some (a, rest ++ more)

lemma stable_yield (a : α) : Stable (yield a : Parser σ α) := by
  rintro text _ rest more ⟨⟩
  rfl

lemma stable_fail : Stable (fail : Parser σ α) := nofun

lemma stable_symbol : Stable (symbol : Parser σ σ) := by
  rintro (_ | ⟨x, text⟩) a rest more h
  · cases h
  · cases h
    rfl

lemma stable_raw (n : Nat) : Stable (raw n : Parser σ (List σ)) := by
  intro text a rest more h
  unfold raw at h ⊢
  split at h
  · cases h
  · cases h
    have hle : n ≤ text.length := by omega
    rw [if_neg (by simp; omega), take_append_of_le_length hle, drop_append_of_le_length hle]

lemma Stable.andThen (hp : Stable p) (hf : ∀ a, Stable (f a)) : Stable (p.andThen f) := by
  intro text b rest more h
  unfold Parser.andThen at h ⊢
  cases hread : p text with
  | none => simp [hread] at h
  | some read =>
    obtain ⟨a, left⟩ := read
    rw [hread] at h
    rw [hp text a left more hread]
    exact hf a left b rest more h

theorem Stable.times (hp : Stable p) (n : Nat) : Stable (times p n) := by
  induction n with
  | zero => exact stable_yield []
  | succ n ih => exact hp.andThen fun a => ih.andThen fun as => stable_yield _

lemma stable_literal [DecidableEq σ] (text : List σ) : Stable (literal text) := by
  induction text with
  | nil => exact stable_yield ()
  | cons x xs ih =>
    refine stable_symbol.andThen fun y => ?_
    split
    · exact ih
    · exact stable_fail

lemma Stable.delimited [DecidableEq σ] (hp : Stable p) : Stable (p.delimited separator close) := by
  refine hp.andThen fun a => stable_symbol.andThen fun c => ?_
  split
  · exact stable_yield _
  · split
    · exact stable_yield _
    · exact stable_fail

variable {q : Parser σ (α × Bool)}

lemma stable_itemsUpTo (hq : Stable q) (fuel : Nat) : Stable (itemsUpTo q fuel) := by
  induction fuel with
  | zero => exact stable_fail
  | succ fuel ih =>
    refine hq.andThen fun item => ?_
    split
    · exact stable_yield _
    · exact ih.andThen fun _ => stable_yield _

/-- Allowing more items changes nothing once the last one was read. -/
lemma itemsUpTo_succ {fuel : Nat} {as : List α} {rest : List σ}
    (h : itemsUpTo q fuel text = some (as, rest)) :
    itemsUpTo q (fuel + 1) text = some (as, rest) := by
  induction fuel generalizing text as rest with
  | zero => cases h
  | succ fuel ih =>
    unfold itemsUpTo Parser.andThen at h ⊢
    cases hread : q text with
    | none => simp [hread] at h
    | some read =>
      obtain ⟨⟨a, last⟩, left⟩ := read
      simp only [hread] at h ⊢
      cases last with
      | true => exact h
      | false =>
        simp only [Bool.false_eq_true, if_false] at h ⊢
        cases hmore : itemsUpTo q fuel left with
        | none => simp [hmore] at h
        | some tail =>
          rw [ih hmore]
          rwa [hmore] at h

lemma stable_items (hq : Stable q) : Stable (items q) := by
  intro text as rest more h
  have hstable : itemsUpTo q text.length (text ++ more) = some (as, rest ++ more) :=
    stable_itemsUpTo hq _ text as rest more h
  unfold items
  rw [length_append]
  induction more.length with
  | zero => exact hstable
  | succ k ih => exact itemsUpTo_succ ih

/-- Of a part of a text that it reads, a stable parser reads nothing. -/
theorem take_eq_none (hstable : Stable p) (hreads : Reads p text a) {k : Nat}
    (hk : k < text.length) : p (text.take k) = none := by
  cases hread : p (text.take k) with
  | none => rfl
  | some read =>
    obtain ⟨b, left⟩ := read
    -- With the missing part put back, the parser would leave that part unread.
    have hwhole := hstable _ b left (text.drop k) hread
    rw [take_append_drop] at hwhole
    have hnil := hreads []
    rw [append_nil, hwhole] at hnil
    have hdrop : text.drop k = [] := (append_eq_nil_iff.1 (Prod.mk.inj (Option.some.inj hnil)).2).2
    rw [drop_eq_nil_iff] at hdrop
    omega

/-! ### Parsers of a fixed size -/

/-- The parser reads so many symbols, whatever they are. -/
structure Fixed (n : Nat) (p : Parser σ α) : Prop where
  short : ∀ text, text.length < n → p text = none
  long : ∀ text, n ≤ text.length → ∃ a, p text = some (a, text.drop n)

lemma fixed_yield (a : α) : Fixed 0 (yield a : Parser σ α) := ⟨nofun, fun _ _ => ⟨a, rfl⟩⟩

lemma fixed_symbol : Fixed 1 (symbol : Parser σ σ) where
  short := by
    rintro (_ | ⟨x, text⟩) h
    · rfl
    · exact absurd h (by simp)
  long := by
    rintro (_ | ⟨x, text⟩) h
    · exact absurd h (by simp)
    · exact ⟨x, rfl⟩

lemma Fixed.andThen {n m : Nat} (hp : Fixed n p) (hf : ∀ a, Fixed m (f a)) :
    Fixed (n + m) (p.andThen f) where
  short := by
    intro text hshort
    rw [Parser.andThen]
    rcases Nat.lt_or_ge text.length n with hlt | hge
    · rw [hp.short text hlt]
    · obtain ⟨a, hread⟩ := hp.long text hge
      rw [hread]
      exact (hf a).short _ (by rw [length_drop]; omega)
  long := by
    intro text hlong
    obtain ⟨a, hread⟩ := hp.long text (by omega)
    obtain ⟨b, hrest⟩ := (hf a).long (text.drop n) (by rw [length_drop]; omega)
    refine ⟨b, ?_⟩
    rw [Parser.andThen, hread]
    simp only [hrest, drop_drop]

/-- It reads the same if what it does not reach is cut off. -/
lemma Fixed.take {n k : Nat} {rest : List σ} (hp : Fixed n p) (hstable : Stable p) (hk : n ≤ k)
    (h : p text = some (a, rest)) : p (text.take k) = some (a, (text.take k).drop n) := by
  have hlength : n ≤ text.length := by
    refine Nat.le_of_not_lt fun hlt => ?_
    rw [hp.short text hlt] at h
    exact nomatch h
  obtain ⟨a', hread⟩ := hp.long (text.take k) (by rw [length_take]; omega)
  -- The rest is put back behind what was read.
  have hwhole := hstable _ _ _ (text.drop k) hread
  rw [take_append_drop, h] at hwhole
  rw [hread, (Prod.mk.inj (Option.some.inj hwhole)).1]

end Parser
