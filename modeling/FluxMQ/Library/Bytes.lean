import FluxMQ.Library.Parser
import Mathlib.Algebra.Order.Ring.Int

/-!
# Numbers as bytes

The fixed-width little-endian numbers and the variable-length numbers of Go's `encoding/binary`, with
what reads them back.

* `Bytes.putUint`, `Bytes.getUint`: a number in so many bytes, the lowest first.
* `Bytes.putUvarint`, `Bytes.getUvarint`: a number below 2^64, seven bits in a byte, of which the
  highest bit says that more follow.
* `Bytes.putVarint`, `Bytes.getVarint`: a signed number, with its sign in the lowest bit.
-/

namespace Bytes

open Parser

/-! ### Fixed width -/

/-- A number in so many bytes; what does not fit is cut off. -/
def putUint : (width : Nat) → Nat → List UInt8
  | 0, _ => []
  | width + 1, n => UInt8.ofNat n :: putUint width (n / 256)

/-- Read a number of so many bytes. -/
def getUint : (width : Nat) → Parser UInt8 Nat
  | 0 => yield 0
  | width + 1 => symbol.andThen fun b => (getUint width).andThen fun n => yield (b.toNat + 256 * n)

@[simp]
lemma length_putUint (width n : Nat) : (putUint width n).length = width := by
  induction width generalizing n with
  | zero => rfl
  | succ width ih => simp [putUint, ih]

/-- What is read back is what fitted. -/
lemma reads_getUint (width n : Nat) :
    Reads (getUint width) (putUint width n) (n % 256 ^ width) := by
  induction width generalizing n with
  | zero =>
    rw [Nat.pow_zero, Nat.mod_one]
    exact reads_yield
  | succ width ih =>
    have hlow : (UInt8.ofNat n).toNat = n % 256 := UInt8.toNat_ofNat'
    have hsplit : n % 256 ^ (width + 1) = (UInt8.ofNat n).toNat + 256 * (n / 256 % 256 ^ width) := by
      rw [hlow, Nat.pow_succ', Nat.mod_mul]
    rw [hsplit]
    have hrest : Reads ((getUint width).andThen fun m => yield ((UInt8.ofNat n).toNat + 256 * m))
        (putUint width (n / 256) ++ []) _ := (ih (n / 256)).andThen reads_yield
    rw [List.append_nil] at hrest
    exact (reads_symbol _).andThen hrest

lemma stable_getUint (width : Nat) : Stable (getUint width) := by
  induction width with
  | zero => exact stable_yield 0
  | succ width ih => exact stable_symbol.andThen fun b => ih.andThen fun n => stable_yield _

lemma fixed_getUint (width : Nat) : Fixed width (getUint width) := by
  induction width with
  | zero => exact fixed_yield 0
  | succ width ih =>
    have hread := fixed_symbol.andThen fun b : UInt8 =>
      ih.andThen fun n => fixed_yield (b.toNat + 256 * n)
    rwa [Nat.add_comm] at hread

/-! ### Variable length -/

/-- The bytes of a number, at most `more + 1` of them. -/
def putUvarintUpTo : (more n : Nat) → List UInt8
  | 0, n => [UInt8.ofNat n]
  | more + 1, n =>
    if n < 0x80 then [UInt8.ofNat n] else UInt8.ofNat (n % 0x80 + 0x80) :: putUvarintUpTo more (n / 0x80)

/-- `PutUvarint`. Ten bytes hold every number below 2^64. -/
def putUvarint (n : Nat) : List UInt8 := putUvarintUpTo 9 n

/-- Read a number that has at most `more + 1` bytes. Of the last one only the lowest bit is left. -/
def getUvarintUpTo : (more : Nat) → Parser UInt8 Nat
  | 0 => symbol.andThen fun b => if b.toNat ≤ 1 then yield b.toNat else fail
  | more + 1 => symbol.andThen fun b =>
    if b.toNat < 0x80 then yield b.toNat
    else (getUvarintUpTo more).andThen fun n => yield (b.toNat % 0x80 + 0x80 * n)

/-- `Uvarint`. -/
def getUvarint : Parser UInt8 Nat := getUvarintUpTo 9

lemma reads_getUvarintUpTo (more : Nat) {n : Nat} (hn : n < 2 * 128 ^ more) :
    Reads (getUvarintUpTo more) (putUvarintUpTo more n) n := by
  have hbyte {m : Nat} (hm : m < 256) : (UInt8.ofNat m).toNat = m := by
    rw [UInt8.toNat_ofNat', Nat.mod_eq_of_lt hm]
  induction more generalizing n with
  | zero =>
    intro rest
    have hn : n < 2 := by simpa using hn
    simp [getUvarintUpTo, putUvarintUpTo, Parser.andThen, symbol, yield, hbyte (by omega : n < 256),
      Nat.le_of_lt_succ hn]
  | succ more ih =>
    unfold putUvarintUpTo
    split
    · rename_i hlast
      intro rest
      simp [getUvarintUpTo, Parser.andThen, symbol, yield, hbyte (by omega : n < 256), hlast]
    have hrest := ih (n := n / 0x80) (by rw [Nat.pow_succ] at hn; omega)
    intro rest
    have hnot : ¬ (UInt8.ofNat (n % 0x80 + 0x80)).toNat < 0x80 := by
      rw [hbyte (by omega)]
      omega
    simp only [List.cons_append, getUvarintUpTo, Parser.andThen, symbol, if_neg hnot, hrest rest,
      yield, Option.some.injEq, Prod.mk.injEq, and_true]
    rw [hbyte (by omega)]
    omega

/-- A number below 2^64 is read back. -/
lemma reads_getUvarint {n : Nat} (hn : n < 2 ^ 64) : Reads getUvarint (putUvarint n) n :=
  reads_getUvarintUpTo 9 hn

lemma stable_getUvarint : Stable getUvarint := by
  unfold getUvarint
  induction 9 with
  | zero =>
    refine stable_symbol.andThen fun b => ?_
    split
    · exact stable_yield _
    · exact stable_fail
  | succ more ih =>
    refine stable_symbol.andThen fun b => ?_
    split
    · exact stable_yield _
    · exact ih.andThen fun n => stable_yield _

/-! ### Signed numbers -/

/-- The sign goes to the lowest bit. -/
def zigzag (v : Int) : Nat := if 0 ≤ v then 2 * v.toNat else 2 * (-v - 1).toNat + 1

/-- The number back. -/
def unzigzag (n : Nat) : Int := if n % 2 = 0 then (n / 2 : Nat) else -(n / 2 : Nat) - 1

lemma unzigzag_zigzag (v : Int) : unzigzag (zigzag v) = v := by
  unfold unzigzag zigzag
  split <;> split <;> omega

def putVarint (v : Int) : List UInt8 := putUvarint (zigzag v)

/-- `Varint`. -/
def getVarint : Parser UInt8 Int := getUvarint.andThen fun n => yield (unzigzag n)

/-- A number of 64 bits is read back. -/
lemma reads_getVarint {v : Int} (hlow : -2 ^ 63 ≤ v) (hhigh : v < 2 ^ 63) :
    Reads getVarint (putVarint v) v := by
  have hzigzag : zigzag v < 2 ^ 64 := by
    unfold zigzag
    split <;> omega
  have hread : Reads getVarint (putUvarint (zigzag v) ++ []) (unzigzag (zigzag v)) :=
    (reads_getUvarint hzigzag).andThen reads_yield
  rwa [List.append_nil, unzigzag_zigzag] at hread

lemma stable_getVarint : Stable getVarint := stable_getUvarint.andThen fun _ => stable_yield _

end Bytes
