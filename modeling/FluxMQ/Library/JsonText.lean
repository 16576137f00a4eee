import FluxMQ.Library.Parser
import Mathlib.Data.Nat.Digits.Lemmas

/-!
# Numbers and strings in JSON text

How Go's `encoding/json` writes numbers and strings, as bytes, and how they are read back.

* `Json.number`, `Json.integer`: decimal numerals. A numeral ends where a byte that is not a digit
  follows, so they are read before such a byte only.
* `Json.string`: a string in quotes. Quotes, backslashes, control characters and the characters
  that are special in HTML are escaped, all others stand in UTF-8.
-/

namespace Json

open Parser List

/-- The byte of an ASCII character. -/
def ascii (c : Char) : UInt8 := UInt8.ofNat c.toNat

/-! ### Numerals -/

/-- Whether a byte is a decimal digit. -/
def isDigit (b : UInt8) : Bool := 48 ≤ b && b ≤ 57

/-- The decimal numeral of a number. -/
def number (n : Nat) : List UInt8 :=
  if n = 0 then [48] else (Nat.digits 10 n).reverse.map fun d => UInt8.ofNat (48 + d)

/-- Read digits up to the byte after them. -/
def digitsFrom (value : Nat) : Parser UInt8 Nat
  | [] => none
  | b :: rest =>
    if isDigit b then digitsFrom (10 * value + (b.toNat - 48)) rest else some (value, b :: rest)

/-- Read a numeral. -/
def numeral : Parser UInt8 Nat
  | [] => none
  | b :: rest => if isDigit b then digitsFrom (b.toNat - 48) rest else none

/-- The numeral of an integer. -/
def integer (i : Int) : List UInt8 :=
  if i < 0 then ascii '-' :: number i.natAbs else number i.natAbs

/-- Read the numeral of an integer. -/
def integerNumeral : Parser UInt8 Int
  | [] => none
  | b :: rest =>
    if b = ascii '-' then (numeral.andThen fun n => Parser.yield (-(n : Int))) rest
    else (numeral.andThen fun n => Parser.yield (n : Int)) (b :: rest)

lemma isDigit_digit {d : Nat} (hd : d < 10) : isDigit (UInt8.ofNat (48 + d)) := by
  interval_cases d <;> rfl

lemma toNat_digit {d : Nat} (hd : d < 10) : (UInt8.ofNat (48 + d)).toNat - 48 = d := by
  interval_cases d <;> rfl

lemma digitsFrom_digits {ds : List Nat} (hds : ∀ d ∈ ds, d < 10) (value : Nat) {c : UInt8}
    (hc : ¬ isDigit c) (rest : List UInt8) :
    digitsFrom value (ds.map (fun d => UInt8.ofNat (48 + d)) ++ c :: rest) =
      some (ds.foldl (fun value d => 10 * value + d) value, c :: rest) := by
  induction ds generalizing value with
  | nil => simp [digitsFrom, hc]
  | cons d ds ih =>
    have hd : d < 10 := hds d mem_cons_self
    rw [map_cons, cons_append, digitsFrom, if_pos (isDigit_digit hd), toNat_digit hd]
    exact ih (fun d' hd' => hds d' (mem_cons_of_mem d hd')) _

lemma foldl_digits (n : Nat) :
    (Nat.digits 10 n).reverse.foldl (fun value d => 10 * value + d) 0 = n := by
  rw [foldl_reverse]
  conv_rhs => rw [← Nat.ofDigits_digits 10 n, Nat.ofDigits_eq_foldr]
  congr 1
  funext d value
  exact Nat.add_comm _ _

/-- A number is read back from its numeral before a byte that is not a digit. -/
lemma reads_numeral (n : Nat) : Parser.ReadsBefore (fun c => ¬ isDigit c) numeral (number n) n := by
  intro c rest hc
  by_cases hn : n = 0
  · subst hn
    show digitsFrom 0 (c :: rest) = some (0, c :: rest)
    rw [digitsFrom, if_neg hc]
  rw [number, if_neg hn]
  have hne : (Nat.digits 10 n).reverse ≠ [] := by simpa using Nat.digits_ne_nil_iff_ne_zero.2 hn
  have hlt : ∀ d ∈ (Nat.digits 10 n).reverse, d < 10 := fun d hd =>
    Nat.digits_lt_base (by norm_num) (mem_reverse.1 hd)
  have hvalue := foldl_digits n
  obtain ⟨d, ds, hds⟩ := exists_cons_of_ne_nil hne
  rw [hds] at hlt hvalue ⊢
  have hd : d < 10 := hlt d mem_cons_self
  rw [map_cons, cons_append, numeral, if_pos (isDigit_digit hd), toNat_digit hd,
    digitsFrom_digits (fun d' hd' => hlt d' (mem_cons_of_mem d hd')) _ hc]
  rw [foldl_cons, Nat.mul_zero, Nat.zero_add] at hvalue
  rw [hvalue]

lemma stable_digitsFrom (value : Nat) : Parser.Stable (digitsFrom value) := by
  intro text a rest more h
  induction text generalizing value with
  | nil => cases h
  | cons b text ih =>
    rw [digitsFrom] at h
    rw [cons_append, digitsFrom]
    split at h
    · rename_i hdigit
      rw [if_pos hdigit]
      exact ih _ h
    rename_i hdigit
    rw [if_neg hdigit]
    cases h
    rfl

lemma stable_numeral : Parser.Stable numeral := by
  rintro (_ | ⟨b, text⟩) a rest more h
  · cases h
  rw [numeral] at h
  rw [cons_append, numeral]
  split at h
  · rename_i hdigit
    rw [if_pos hdigit]
    exact stable_digitsFrom _ text a rest more h
  · cases h

/-- A numeral begins with a digit. -/
lemma number_eq_cons (n : Nat) : ∃ b rest, number n = b :: rest ∧ isDigit b := by
  by_cases hn : n = 0
  · exact ⟨48, [], by simp [number, hn], rfl⟩
  have hne : (Nat.digits 10 n).reverse ≠ [] := by simpa using Nat.digits_ne_nil_iff_ne_zero.2 hn
  obtain ⟨d, ds, hds⟩ := exists_cons_of_ne_nil hne
  have hmem : d ∈ (Nat.digits 10 n).reverse := hds ▸ mem_cons_self
  refine ⟨UInt8.ofNat (48 + d), ds.map fun d => UInt8.ofNat (48 + d), ?_,
    isDigit_digit (Nat.digits_lt_base (by norm_num) (mem_reverse.1 hmem))⟩
  rw [number, if_neg hn, hds, map_cons]

/-- An integer is read back from its numeral before a byte that is not a digit. -/
lemma reads_integerNumeral (i : Int) :
    Parser.ReadsBefore (fun c => ¬ isDigit c) integerNumeral (integer i) i := by
  intro c rest hc
  rw [integer]
  split
  · rw [cons_append, integerNumeral, if_pos rfl]
    rw [((reads_numeral i.natAbs).andThen_yield fun n => -(n : Int)) c rest hc]
    simp only [Option.some.injEq, Prod.mk.injEq, and_true]
    omega
  rename_i hpos
  -- The first byte is a digit and so not a sign.
  obtain ⟨b, digits, hnumber, hdigit⟩ := number_eq_cons i.natAbs
  have hsign : b ≠ ascii '-' := by
    rintro rfl
    exact absurd hdigit (by decide)
  have hread := ((reads_numeral i.natAbs).andThen_yield fun n => (n : Int)) c rest hc
  rw [hnumber, cons_append] at hread ⊢
  rw [integerNumeral, if_neg hsign, hread]
  simp only [Option.some.injEq, Prod.mk.injEq, and_true]
  omega

lemma stable_integerNumeral : Parser.Stable integerNumeral := by
  rintro (_ | ⟨b, text⟩) a rest more h
  · cases h
  rw [integerNumeral] at h
  rw [cons_append, integerNumeral]
  split at h
  · rename_i hsign
    rw [if_pos hsign]
    exact stable_numeral.andThen (fun _ => stable_yield _) text a rest more h
  · rename_i hsign
    rw [if_neg hsign]
    exact stable_numeral.andThen (fun _ => stable_yield _) (b :: text) a rest more h

/-! ### Strings -/

/-- Read one character in UTF-8. -/
def char : Parser UInt8 Char := fun text =>
  match text.toByteArray.utf8DecodeChar? 0 with
  | none => none
  | some c => some (c, text.drop c.utf8Size)

lemma reads_char (c : Char) : Parser.Reads char (String.utf8EncodeChar c) c := by
  intro rest
  rw [char, toByteArray_append, ByteArray.utf8DecodeChar?_utf8EncodeChar_append]
  simp [← String.length_utf8EncodeChar]

lemma stable_char : Parser.Stable char := by
  intro text c rest more h
  unfold char at h ⊢
  cases hdecode : text.toByteArray.utf8DecodeChar? 0 with
  | none => simp [hdecode] at h
  | some d =>
    rw [hdecode] at h
    obtain ⟨rfl, rfl⟩ := Prod.mk.inj (Option.some.inj h)
    rw [toByteArray_append, ByteArray.utf8DecodeChar?_append_eq_some hdecode]
    have hsize := ByteArray.le_size_of_utf8DecodeChar?_eq_some hdecode
    rw [size_toByteArray] at hsize
    simp only [Option.some.injEq, Prod.mk.injEq, true_and]
    rw [drop_append_of_le_length (by omega)]

/-- The characters that have an escape of one letter, with the letter. -/
def shortEscapes : List (Char × Char) :=
  [('"', '"'), ('\\', '\\'), ('\x08', 'b'), ('\x0c', 'f'), ('\n', 'n'), ('\r', 'r'), ('\t', 't')]

/-- The other characters that are written as the number of their code point: control characters,
those special in HTML, and two line separators. -/
def needsCode (c : Char) : Bool :=
  c.toNat < 32 || c == '<' || c == '>' || c == '&' || c.toNat == 0x2028 || c.toNat == 0x2029

/-- The byte of a hexadecimal digit. -/
def hexDigit (d : Nat) : UInt8 :=
  if d < 10 then UInt8.ofNat (48 + d) else UInt8.ofNat (87 + d)

/-- The digit a byte stands for. -/
def unhex (b : UInt8) : Option Nat :=
  let n := b.toNat
  if 48 ≤ n ∧ n ≤ 57 then some (n - 48)
  else if 97 ≤ n ∧ n ≤ 102 then some (n - 87)
  else if 65 ≤ n ∧ n ≤ 70 then some (n - 55)
  else none

/-- A character as it is written in a string. -/
def escape (c : Char) : List UInt8 :=
  match shortEscapes.lookup c with
  | some letter => [ascii '\\', ascii letter]
  | none =>
    if needsCode c then
      let n := c.toNat
      [ascii '\\', ascii 'u', hexDigit (n / 4096 % 16), hexDigit (n / 256 % 16),
        hexDigit (n / 16 % 16), hexDigit (n % 16)]
    else String.utf8EncodeChar c

/-- A string in quotes. -/
def string (s : String) : List UInt8 :=
  ascii '"' :: (s.toList.flatMap escape ++ [ascii '"'])

/-- Read a hexadecimal digit. -/
def hexNumeral : Parser UInt8 Nat :=
  Parser.symbol.andThen fun b =>
    match unhex b with
    | some d => Parser.yield d
    | none => Parser.fail

/-- Read what follows a backslash. -/
def escaped : Parser UInt8 Char :=
  char.andThen fun letter =>
    if letter = 'u' then
      hexNumeral.andThen fun a => hexNumeral.andThen fun b => hexNumeral.andThen fun c =>
        hexNumeral.andThen fun d => Parser.yield (Char.ofNat (4096 * a + 256 * b + 16 * c + d))
    else if letter = '/' then Parser.yield '/'
    else
      match shortEscapes.find? fun e => e.2 == letter with
      | some e => Parser.yield e.1
      | none => Parser.fail

/-- Read a character of a string, or the quote that ends it. -/
def stringItem : Parser UInt8 (Option Char × Bool) :=
  char.andThen fun c =>
    if c = '"' then Parser.yield (none, true)
    else if c = '\\' then escaped.andThen fun c => Parser.yield (some c, false)
    else if c.toNat < 32 then Parser.fail
    else Parser.yield (some c, false)

/-- Read a string in quotes. -/
def quoted : Parser UInt8 String :=
  (Parser.literal [ascii '"']).andThen fun _ => (Parser.items stringItem).andThen fun cs =>
    Parser.yield (String.ofList (cs.filterMap id))

lemma unhex_hexDigit {d : Nat} (hd : d < 16) : unhex (hexDigit d) = some d := by
  interval_cases d <;> rfl

lemma hexNumeral_hexDigit {d : Nat} (hd : d < 16) (rest : List UInt8) :
    hexNumeral (hexDigit d :: rest) = some (d, rest) := by
  show (match unhex (hexDigit d) with
    | some d => yield d
    | none => fail) rest = some (d, rest)
  rw [unhex_hexDigit hd]
  rfl

lemma reads_ascii {c : Char} (hc : c.toNat < 128) : Parser.Reads char [ascii c] c := by
  have hencode : String.utf8EncodeChar c = [ascii c] := by
    have hle : c.val.toNat ≤ 0x7f := Nat.le_of_lt_succ hc
    rw [String.utf8EncodeChar]
    simp only [hle, if_true]
    rfl
  exact hencode ▸ reads_char c

lemma reads_backslash {text : List UInt8} {c : Char} (h : Parser.Reads escaped text c) :
    Parser.Reads stringItem (ascii '\\' :: text) (some c, false) := by
  intro rest
  have hback : char (ascii '\\' :: (text ++ rest)) = some ('\\', text ++ rest) :=
    reads_ascii (by decide) _
  rw [cons_append, stringItem, andThen, hback]
  show (escaped.andThen fun c => yield (some c, false)) (text ++ rest) = _
  rw [andThen, h]
  rfl

/-- What follows the backslash of a short escape. -/
lemma reads_escaped_short {c letter : Char} (h : (c, letter) ∈ shortEscapes) :
    Parser.Reads escaped [ascii letter] c := by
  have hfacts : ∀ e ∈ shortEscapes, e.2.toNat < 128 ∧ e.2 ≠ 'u' ∧ e.2 ≠ '/' ∧
      (shortEscapes.find? fun e' => e'.2 == e.2) = some e := by decide
  obtain ⟨hascii, hu, hslash, hfind⟩ := hfacts (c, letter) h
  intro rest
  rw [escaped, andThen, reads_ascii hascii]
  simp only [hu, hslash, hfind, if_false]
  rfl

/-- What follows the backslash of a code point. -/
lemma reads_escaped_code {n : Nat} (hn : n < 65536) :
    Parser.Reads escaped
      [ascii 'u', hexDigit (n / 4096 % 16), hexDigit (n / 256 % 16), hexDigit (n / 16 % 16),
        hexDigit (n % 16)] (Char.ofNat n) := by
  have hsum : 4096 * (n / 4096 % 16) + 256 * (n / 256 % 16) + 16 * (n / 16 % 16) + n % 16 = n := by
    omega
  have hdigit : ∀ m : Nat, m % 16 < 16 := fun m => Nat.mod_lt m (by norm_num)
  intro rest
  have hu : ∀ text, char (ascii 'u' :: text) = some ('u', text) := reads_ascii (by decide)
  simp only [escaped, andThen, cons_append, nil_append, hu, if_true,
    hexNumeral_hexDigit (hdigit _), yield, hsum]

/-- A character of a string is read back. -/
lemma reads_escape (c : Char) : Parser.Reads stringItem (escape c) (some c, false) := by
  unfold escape
  cases hshort : shortEscapes.lookup c with
  | some letter =>
    obtain ⟨before, after, hsplit, -⟩ := lookup_eq_some_iff.1 hshort
    have hmem : (c, letter) ∈ shortEscapes := by
      rw [hsplit]
      exact mem_append_right _ mem_cons_self
    have hread : Parser.Reads escaped [ascii letter] c := reads_escaped_short hmem
    exact reads_backslash hread
  | none =>
    simp only
    split
    · rename_i hcode
      have hn : c.toNat < 65536 := by
        simp only [needsCode, Bool.or_eq_true, decide_eq_true_eq, beq_iff_eq] at hcode
        rcases hcode with ((((h | rfl) | rfl) | rfl) | h) | h <;> first | omega | decide
      have h := reads_backslash (reads_escaped_code hn)
      rwa [Char.ofNat_toNat] at h
    rename_i hcode
    -- The character is none of those that end a string or begin an escape.
    have hquote : c ≠ '"' := by rintro rfl; simp [shortEscapes] at hshort
    have hback : c ≠ '\\' := by rintro rfl; simp [shortEscapes] at hshort
    have hcontrol : ¬ c.toNat < 32 := fun h => hcode (by simp [needsCode, h])
    intro rest
    rw [stringItem, andThen, reads_char]
    simp only [hquote, hback, hcontrol, if_false]
    rfl

/-- A string is read back. -/
lemma reads_quoted (s : String) : Parser.Reads quoted (string s) s := by
  have hitems : Parser.Reads (items stringItem) (s.toList.flatMap escape ++ [ascii '"'])
      (s.toList.map some ++ [none]) := by
    refine reads_items reads_escape ?_ ?_ (by simp) s.toList
    · intro rest
      rw [stringItem, andThen, reads_ascii (by decide)]
      rfl
    intro c hnil
    have hread := reads_escape c []
    rw [hnil] at hread
    cases hread
  refine (reads_literal [ascii '"']).andThen ?_
  intro rest
  have hread : items stringItem ((s.toList.flatMap escape ++ [ascii '"']) ++ rest) =
      some (s.toList.map some ++ [none], rest) := hitems rest
  show ((items stringItem).andThen _) ((s.toList.flatMap escape ++ [ascii '"']) ++ rest) = _
  rw [andThen, hread]
  simp [yield, filterMap_append, filterMap_map]

lemma stable_hexNumeral : Parser.Stable hexNumeral := by
  refine stable_symbol.andThen fun b => ?_
  split
  · exact stable_yield _
  · exact stable_fail

lemma stable_escaped : Parser.Stable escaped := by
  refine stable_char.andThen fun letter => ?_
  split
  · exact stable_hexNumeral.andThen fun _ => stable_hexNumeral.andThen fun _ =>
      stable_hexNumeral.andThen fun _ => stable_hexNumeral.andThen fun _ => stable_yield _
  split
  · exact stable_yield _
  · split
    · exact stable_yield _
    · exact stable_fail

lemma stable_quoted : Parser.Stable quoted := by
  have hitem : Parser.Stable stringItem := by
    refine stable_char.andThen fun c => ?_
    split
    · exact stable_yield _
    split
    · exact stable_escaped.andThen fun _ => stable_yield _
    · split
      · exact stable_fail
      · exact stable_yield _
  exact (stable_literal _).andThen fun _ =>
    (stable_items hitem).andThen fun _ => stable_yield _

end Json
