/-!
# Binary search

`Search.search` is `sort.Search` of Go: the search for the first index at which a condition holds, by
halving an interval. It finds that index if the condition holds from there on.
-/

namespace Search

/-- Halve the interval from `i` to `j`, at most `fuel` times. -/
def bisect (f : Nat → Bool) : (fuel i j : Nat) → Nat
  | 0, i, _ => i
  | fuel + 1, i, j =>
    if i < j then
      let h := (i + j) / 2
      if f h then bisect f fuel i h else bisect f fuel (h + 1) j
    else i

/-- `sort.Search`. -/
def search (n : Nat) (f : Nat → Bool) : Nat := bisect f n 0 n

variable {f : Nat → Bool} {n k : Nat}

theorem bisect_eq (hbelow : ∀ i < k, f i = false) (habove : ∀ i, k ≤ i → i < n → f i = true)
    (fuel i j : Nat) (hi : i ≤ k) (hk : k ≤ j) (hj : j ≤ n) (hfuel : j - i ≤ fuel) :
    bisect f fuel i j = k := by
  induction fuel generalizing i j with
  | zero =>
    show i = k
    omega
  | succ fuel ih =>
    unfold bisect
    split
    · dsimp only
      split
      · -- The condition holds in the middle, so the first index is not behind it.
        rename_i hmiddle
        refine ih i _ hi (Nat.le_of_not_lt fun hlt => ?_) (by omega) (by omega)
        exact absurd (hbelow _ hlt) (by simp [hmiddle])
      · rename_i hmiddle
        refine ih _ j (Nat.lt_of_not_le fun hle => ?_) hk hj (by omega)
        exact hmiddle (habove _ hle (by omega))
    · omega

/-- The first index at which the condition holds is found. -/
theorem search_eq (hk : k ≤ n) (hbelow : ∀ i < k, f i = false)
    (habove : ∀ i, k ≤ i → i < n → f i = true) : search n f = k :=
  bisect_eq hbelow habove n 0 n (Nat.zero_le k) hk (Nat.le_refl n) (by omega)

end Search
