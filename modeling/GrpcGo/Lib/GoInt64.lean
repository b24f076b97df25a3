import GrpcGo.Lib.GoStrings

/-!
# Go's `int64` and `time.Duration`

Go's signed 64-bit arithmetic wraps around in two's complement.  The model computes the exact
result on `Int` and wraps it onto the range of `int64` with `wrap64`; where Go converts with a
range check instead, the model clamps with `clamp64`.  Go's `/` and `%` truncate toward zero,
which on the nonnegative operands used here are `Int.ediv` and `Int.emod`.  A `time.Duration`
is an `int64` count of nanoseconds.

`Time.durationString` prints a duration as `time.Duration.String` does.

`FormatInt` and the lemma `parseInt_toString` connect `strconv.FormatInt(d, 10)` with
`strconv.ParseInt(_, 10, 64)` on the numbers a header can carry.
-/

namespace GoStd

/-- `math.MaxInt64`. -/
def MaxInt64 : Int := 9223372036854775807

/-- `math.MinInt64`. -/
def MinInt64 : Int := -9223372036854775808

/-- `x` is in the range of `int64`. -/
def InInt64 (x : Int) : Prop := MinInt64 ≤ x ∧ x ≤ MaxInt64

instance (x : Int) : Decidable (InInt64 x) := inferInstanceAs (Decidable (_ ∧ _))

/-- The `int64` that Go's arithmetic gives for the exact result `x`: `x + 2 ^ 63` modulo
`2 ^ 64`, less `2 ^ 63`. -/
def wrap64 (x : Int) : Int := (x + 9223372036854775808) % 18446744073709551616 - 9223372036854775808

/-- `x` clamped to the range of `int64`. -/
def clamp64 (x : Int) : Int := max MinInt64 (min x MaxInt64)

theorem wrap64_of_inInt64 {x : Int} (h : InInt64 x) : wrap64 x = x := by
  unfold InInt64 MinInt64 MaxInt64 at h
  unfold wrap64
  omega

theorem inInt64_wrap64 (x : Int) : InInt64 (wrap64 x) := by
  unfold InInt64 MinInt64 MaxInt64 wrap64
  omega

theorem clamp64_of_inInt64 {x : Int} (h : InInt64 x) : clamp64 x = x := by
  unfold InInt64 at h
  unfold clamp64
  omega

namespace Time

/-- `time.Nanosecond`. -/
def Nanosecond : Int := 1
/-- `time.Microsecond`. -/
def Microsecond : Int := 1000
/-- `time.Millisecond`. -/
def Millisecond : Int := 1000000
/-- `time.Second`. -/
def Second : Int := 1000000000
/-- `time.Minute`. -/
def Minute : Int := 60000000000
/-- `time.Hour`. -/
def Hour : Int := 3600000000000

/-- The loop of `fmtFrac`: the last `n` decimal digits of `v`, least significant first, kept
from the first one that is not zero. -/
def fmtFracLoop : Nat → Nat → Bool → List Char → List Char × Bool × Nat
  | 0, v, print, buf => (buf, print, v)
  | n + 1, v, print, buf =>
    let digit := v % 10
    let print := print || digit != 0
    fmtFracLoop n (v / 10) print (if print then Nat.digitChar digit :: buf else buf)

/-- `fmtFrac(buf, v, prec)` of the `time` package: the fraction `v / 10 ^ prec` printed without
its trailing zeros (and without the point when nothing is left), and the integer part. -/
def fmtFrac (v prec : Nat) : List Char × Nat :=
  let (buf, print, v) := fmtFracLoop prec v false []
  (if print then '.' :: buf else buf, v)

/-- `time.Duration.String()`: below a second in the largest of `ns`, `µs` and `ms` that fits,
otherwise in hours, minutes and seconds, with a fraction where one is left. -/
def durationString (d : Int) : String :=
  let u := d.natAbs
  let body : List Char :=
    if u < 1000000000 then
      let (prec, unit) : Nat × List Char :=
        if u < 1000 then (0, ['n', 's'])
        else if u < 1000000 then (3, ['\xb5', 's'])
        else (6, ['m', 's'])
      let (frac, v) := fmtFrac u prec
      Nat.toDigits 10 v ++ frac ++ unit
    else
      let (frac, u) := fmtFrac u 9
      let secs := Nat.toDigits 10 (u % 60) ++ frac ++ ['s']
      if u / 60 = 0 then secs
      else
        let mins := Nat.toDigits 10 (u / 60 % 60) ++ 'm' :: secs
        if u / 3600 = 0 then mins else Nat.toDigits 10 (u / 3600) ++ 'h' :: mins
  if u = 0 then "0s" else String.ofList (if d < 0 then '-' :: body else body)

example : durationString (25 * Millisecond) = "25ms" := by decide
example : durationString (-(3 * Hour + 1500 * Millisecond)) = "-3h0m1.5s" := by decide

end Time

namespace Strconv

/-- `strconv.FormatInt(d, 10)`. -/
def FormatInt (d : Int) : String := toString d

/-- The decimal digits of a number are digits, and there is at least one. -/
theorem toDigits_ne_nil (n : Nat) : Nat.toDigits 10 n ≠ [] := by
  rw [Nat.toDigits_eq_if (by decide)]
  split
  · exact List.cons_ne_nil _ _
  · exact List.append_ne_nil_of_right_ne_nil _ (List.cons_ne_nil _ _)

/-- `ParseInt` reads a nonempty string of decimal digits as its value, when that is in range. -/
theorem parseInt_of_digits (cs : List Char) (hne : cs ≠ []) (hall : ∀ c ∈ cs, c.isDigit = true)
    (hv : digitsValue cs 0 < 2 ^ 63) :
    parseInt (String.ofList cs) = some (digitsValue cs 0 : Int) := by
  obtain ⟨c, cs', rfl⟩ := List.exists_cons_of_ne_nil hne
  have hc : c.isDigit = true := hall c List.mem_cons_self
  have hall' : (c :: cs').all Char.isDigit = true := List.all_eq_true.mpr hall
  unfold parseInt
  rw [String.toList_ofList]
  split
  rename_i neg body heq
  -- the first character is a digit, not a sign
  split at heq
  · rename_i rest hm
    cases hm
    exact absurd hc (by decide)
  · rename_i rest hm
    cases hm
    exact absurd hc (by decide)
  · cases heq
    simp only [List.isEmpty_cons, hall', Bool.not_true, Bool.or_false, Bool.false_eq_true,
      if_false, Bool.or_eq_true, decide_eq_true_eq]
    rw [if_neg (by omega)]

/-- `ParseInt` reads back what `FormatInt` prints for a number in range. -/
theorem parseInt_toString (n : Nat) (h : n < 2 ^ 63) : parseInt (toString n) = some (n : Int) := by
  have hall : ∀ c ∈ Nat.toDigits 10 n, c.isDigit = true :=
    fun c hc => Nat.isDigit_of_mem_toDigits (by decide) (by decide) hc
  rw [Nat.toString_eq_ofList_toDigits,
    parseInt_of_digits _ (toDigits_ne_nil n) hall (by rw [digitsValue_toDigits]; exact h),
    digitsValue_toDigits]

/-- A decimal digit is worth at most nine. -/
theorem digit_le (c : Char) (h : c.isDigit = true) : c.toNat - '0'.toNat ≤ 9 := by
  simp only [Char.isDigit, Bool.and_eq_true, decide_eq_true_eq] at h
  have h57 : c.val.toNat ≤ 57 := UInt32.le_iff_toNat_le.mp h.2
  show c.val.toNat - 48 ≤ 9
  omega

/-- Digits after `acc` make a number below `acc + 1` shifted by their count. -/
theorem digitsValue_lt : ∀ (cs : List Char), (∀ c ∈ cs, c.isDigit = true) → ∀ acc,
    digitsValue cs acc < (acc + 1) * 10 ^ cs.length
  | [], _, acc => by simp [digitsValue]
  | c :: cs, hall, acc => by
    have hc := digit_le c (hall c List.mem_cons_self)
    have ih := digitsValue_lt cs (fun d hd => hall d (List.mem_cons_of_mem c hd)) (acc * 10 + (c.toNat - '0'.toNat))
    calc digitsValue (c :: cs) acc = digitsValue cs (acc * 10 + (c.toNat - '0'.toNat)) := rfl
      _ < (acc * 10 + (c.toNat - '0'.toNat) + 1) * 10 ^ cs.length := ih
      _ ≤ (acc + 1) * 10 ^ (c :: cs).length := by
        rw [List.length_cons, Nat.pow_succ, ← Nat.mul_assoc, Nat.mul_right_comm]
        apply Nat.mul_le_mul_right
        omega

/-- What `ParseInt` reads from `k` characters is below `10 ^ k` in absolute value. -/
theorem parseInt_natAbs_lt {s : String} {t : Int} (h : parseInt s = some t) :
    t.natAbs < 10 ^ s.length := by
  unfold parseInt at h
  split at h
  rename_i neg body hsign
  -- the digits are what follows the sign, if any
  have hlen : body.length ≤ s.length := by
    rw [← String.length_toList]
    split at hsign <;> (rename_i hs; cases hsign; simp [hs])
  dsimp only at h
  split_ifs at h with hbad hneg
  all_goals
    cases h
    simp only [Bool.or_eq_true, Bool.not_eq_true', not_or, Bool.not_eq_false] at hbad
    have hlt := digitsValue_lt body (List.all_eq_true.mp hbad.2) 0
    have hpow : 10 ^ body.length ≤ 10 ^ s.length := Nat.pow_le_pow_right (by decide) hlen
  · rw [Int.natAbs_neg, Int.natAbs_natCast]
    omega
  · rw [Int.natAbs_natCast]
    omega

end Strconv

end GoStd
