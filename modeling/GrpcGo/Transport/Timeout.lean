import GrpcGo.Lib.GoInt64

/-!
# The `grpc-timeout` header

A client sends its deadline as `grpc-timeout`: at most eight decimal digits and a unit letter.
`EncodeDuration` (`internal/grpcutil/encode_duration.go`) picks the finest unit in which the
duration, rounded up, fits in eight digits; `decodeTimeout` (`internal/transport/http_util.go`)
reads the header back, clamping a number of hours that would overflow `int64`.

* `decodeTimeout_format`: what `decodeTimeout` returns on digits followed by a unit letter.
* `EncodeDuration_spec`: `EncodeDuration` prints a number of at most eight digits and a unit,
  and that many units is the duration rounded up.
* `timeout_never_shortened`: for every positive duration, the round trip returns a duration
  at least as long, by less than the unit chosen; a duration of zero or less is sent as
  `0n`.
* `decodeTimeout_accepts`: what `decodeTimeout` accepts and what it computes.  A large
  negative number of hours is not clamped, and its product wraps around
  (`decodeTimeout_negative_hours_wrap`).
-/

namespace GrpcGo
namespace Transport

open GoStd GoStd.Time GoStd.Strconv

/-! ## The model -/

/-- `timeoutUnitToDuration(u)`. -/
def timeoutUnitToDuration (u : Char) : Option Int :=
  match u with
  | 'H' => some Hour
  | 'M' => some Minute
  | 'S' => some Second
  | 'm' => some Millisecond
  | 'u' => some Microsecond
  | 'n' => some Nanosecond
  | _ => none

/-- `maxHours`: the hours that fit in an `int64` of nanoseconds. -/
def maxHours : Int := MaxInt64 / Hour

/-- `decodeTimeout(s)`.  `strconv.ParseInt` fails on at most eight characters only with a
syntax error. -/
def decodeTimeout (s : String) : Except String Int :=
  let size := s.length
  if size < 2 then .error ("transport: timeout string is too short: " ++ quote s)
  else if size > 9 then .error ("transport: timeout string is too long: " ++ quote s)
  else
    let unit := s.toList.getLastD ' '
    match timeoutUnitToDuration unit with
    | none => .error ("transport: timeout unit is not recognized: " ++ quote s)
    | some d =>
      let body := String.ofList (s.toList.take (size - 1))
      match parseInt body with
      | none => .error ("strconv.ParseInt: parsing " ++ quote body ++ ": invalid syntax")
      | some t =>
        -- this timeout would overflow `math.MaxInt64`; clamp it
        if d = Hour ∧ t > maxHours then .ok MaxInt64
        else .ok (wrap64 (d * t))

/-- `maxTimeoutValue`. -/
def maxTimeoutValue : Int := 100000000 - 1

/-- `div(d, r)`: integer division rounded up. -/
def div (d r : Int) : Int :=
  if d.tmod r > 0 then d.tdiv r + 1 else d.tdiv r

/-- `EncodeDuration(t)`. -/
def EncodeDuration (t : Int) : String :=
  if t ≤ 0 then "0n"
  else if div t Nanosecond ≤ maxTimeoutValue then FormatInt (div t Nanosecond) ++ "n"
  else if div t Microsecond ≤ maxTimeoutValue then FormatInt (div t Microsecond) ++ "u"
  else if div t Millisecond ≤ maxTimeoutValue then FormatInt (div t Millisecond) ++ "m"
  else if div t Second ≤ maxTimeoutValue then FormatInt (div t Second) ++ "S"
  else if div t Minute ≤ maxTimeoutValue then FormatInt (div t Minute) ++ "M"
  -- `maxTimeoutValue * time.Hour > MaxInt64`
  else FormatInt (div t Hour) ++ "H"

/-! ## Decoding digits and a unit -/

theorem maxHours_eq : maxHours = 2562047 := by decide

/-- The characters of a number's digits followed by a unit letter. -/
theorem toList_format (n : Nat) (c : Char) :
    (FormatInt n ++ String.singleton c).toList = Nat.toDigits 10 n ++ [c] := by
  rw [String.toList_append, String.toList_singleton, FormatInt,
    show toString (n : Int) = toString n from rfl, Nat.toString_eq_ofList_toDigits,
    String.toList_ofList]

/-- A number below `10 ^ 8` and a unit letter make at most nine characters. -/
theorem length_format {n : Nat} (hn : n < 10 ^ 8) (c : Char) :
    2 ≤ (FormatInt n ++ String.singleton c).length ∧
      (FormatInt n ++ String.singleton c).length ≤ 9 := by
  have hlen : (Nat.toDigits 10 n).length ≤ 8 := Nat.toDigits_length 10 n 8 (by decide) hn
  have hpos : 0 < (Nat.toDigits 10 n).length := List.length_pos_iff.mpr (toDigits_ne_nil n)
  rw [← String.length_toList, toList_format, List.length_append, List.length_singleton]
  omega

/-- What `decodeTimeout` returns on the digits of a number below `10 ^ 8` followed by a unit
letter: the number of units, clamped for hours, wrapped around otherwise. -/
theorem decodeTimeout_format (n : Nat) (hn : n < 10 ^ 8) (c : Char) {u : Int}
    (hu : timeoutUnitToDuration c = some u) :
    decodeTimeout (FormatInt n ++ String.singleton c) =
      .ok (if u = Hour ∧ (n : Int) > maxHours then MaxInt64 else wrap64 (u * n)) := by
  obtain ⟨hlo, hhi⟩ := length_format hn c
  have hparse : parseInt (String.ofList (Nat.toDigits 10 n)) = some (n : Int) := by
    rw [← Nat.toString_eq_ofList_toDigits]
    exact parseInt_toString n (by omega)
  unfold decodeTimeout
  dsimp only
  rw [if_neg (by omega), if_neg (by omega), toList_format, List.getLastD_concat, hu,
    ← String.length_toList, toList_format, List.length_append, List.length_singleton,
    Nat.add_sub_cancel, List.take_left' rfl, hparse]
  dsimp only
  split_ifs <;> rfl

/-! ## What `EncodeDuration` prints -/

/-- `div` on positive numbers is the quotient rounded up. -/
theorem div_spec {d r : Int} (hd : 0 < d) (hr : 0 < r) :
    (div d r - 1) * r < d ∧ d ≤ div d r * r := by
  have htdiv : d.tdiv r = d / r := Int.tdiv_eq_ediv_of_nonneg hd.le
  have htmod : d.tmod r = d % r := Int.tmod_eq_emod_of_nonneg hd.le
  have hdiv := Int.mul_ediv_add_emod d r
  have hmod := Int.emod_nonneg d hr.ne'
  have hlt := Int.emod_lt_of_pos d hr
  unfold div
  rw [htdiv, htmod]
  split_ifs with hpos
  · constructor
    · rw [Int.add_sub_cancel]
      nlinarith
    · nlinarith
  · constructor <;> nlinarith

/-- A unit up to minutes in which the rounded-up count fits in eight digits: the count of
units fits in `int64`. -/
theorem unit_fits {t u : Int} (ht : 0 < t) (hu : 0 < u) (hmin : u ≤ Minute)
    (h : div t u ≤ maxTimeoutValue) :
    0 ≤ div t u ∧ div t u < 10 ^ 8 ∧ (u ≠ Hour → u * div t u ≤ MaxInt64) := by
  have hpos : 0 ≤ div t u := by
    have := (div_spec ht hu).2
    nlinarith
  refine ⟨hpos, by unfold maxTimeoutValue at h; omega, fun _ => ?_⟩
  calc u * div t u ≤ Minute * maxTimeoutValue := Int.mul_le_mul hmin h hpos (by decide)
    _ ≤ MaxInt64 := by decide

/-- What `EncodeDuration` prints for a positive duration: the duration in one of the six units,
rounded up, in at most eight digits; in any unit but hours, that many units fit in `int64`. -/
theorem EncodeDuration_spec {t : Int} (ht : 0 < t) (hmax : t ≤ MaxInt64) :
    ∃ c u, timeoutUnitToDuration c = some u ∧ 0 < u ∧
      EncodeDuration t = FormatInt (div t u) ++ String.singleton c ∧
      0 ≤ div t u ∧ div t u < 10 ^ 8 ∧ (u ≠ Hour → u * div t u ≤ MaxInt64) := by
  unfold EncodeDuration
  rw [if_neg (by omega)]
  split_ifs with h1 h2 h3 h4 h5
  · exact ⟨'n', Nanosecond, rfl, by decide, rfl, unit_fits ht (by decide) (by decide) h1⟩
  · exact ⟨'u', Microsecond, rfl, by decide, rfl, unit_fits ht (by decide) (by decide) h2⟩
  · exact ⟨'m', Millisecond, rfl, by decide, rfl, unit_fits ht (by decide) (by decide) h3⟩
  · exact ⟨'S', Second, rfl, by decide, rfl, unit_fits ht (by decide) (by decide) h4⟩
  · exact ⟨'M', Minute, rfl, by decide, rfl, unit_fits ht (by decide) (by decide) h5⟩
  · -- hours: at most `MaxInt64 / Hour + 1` of them
    obtain ⟨hlo, hhi⟩ := div_spec ht (show 0 < Hour by decide)
    unfold Hour MaxInt64 at *
    exact ⟨'H', 3600000000000, rfl, by decide, rfl, by nlinarith, by omega, fun h => absurd rfl h⟩

/-! ## The round trip -/

/-- **A deadline sent as `grpc-timeout` is never shortened.**  For every duration `t`,
`EncodeDuration` prints a number `n` of at most eight digits and a unit `u`, at most nine
characters, and `decodeTimeout` reads back `d`: `n` units, or `MaxInt64` where that many hours
are clamped.  `d` is at least `max t 0`, and by less than one unit. -/
theorem timeout_never_shortened (t : Int) (hmax : t ≤ MaxInt64) :
    ∃ c u n d, timeoutUnitToDuration c = some u ∧ 0 ≤ n ∧ n < 10 ^ 8 ∧
      EncodeDuration t = FormatInt n ++ String.singleton c ∧ (EncodeDuration t).length ≤ 9 ∧
      d = (if u = Hour ∧ n > maxHours then MaxInt64 else u * n) ∧
      decodeTimeout (EncodeDuration t) = .ok d ∧ max t 0 ≤ d ∧ d - max t 0 < u := by
  by_cases ht : t ≤ 0
  · -- sent as `0n`
    have henc : EncodeDuration t = FormatInt (0 : Nat) ++ String.singleton 'n' := by
      rw [EncodeDuration, if_pos ht]
      rfl
    refine ⟨'n', Nanosecond, 0, 0, rfl, le_refl _, by decide, henc,
      by rw [henc]; exact (length_format (by decide) 'n').2, by decide, ?_, by omega,
      by unfold Nanosecond; omega⟩
    rw [henc, decodeTimeout_format 0 (by decide) 'n' rfl]
    rfl
  · obtain ⟨c, u, hu, hupos, henc, hn0, hn8, hfit⟩ := EncodeDuration_spec (by omega) hmax
    obtain ⟨hlo, hhi⟩ := div_spec (show 0 < t by omega) hupos
    obtain ⟨m, hm⟩ := Int.eq_ofNat_of_zero_le hn0
    have henc' : EncodeDuration t = FormatInt (m : Nat) ++ String.singleton c := by
      rw [henc, hm]
    have hdec := decodeTimeout_format m (by omega) c hu
    rw [← hm] at hdec
    refine ⟨c, u, div t u, _, hu, hn0, hn8, henc,
      by rw [henc']; exact (length_format (by omega) c).2, rfl, ?_, ?_, ?_⟩
    · -- where nothing is clamped, `n` units fit in `int64` and do not wrap around
      rw [henc, hdec]
      split_ifs with hclamp
      · rfl
      · have hin : InInt64 (u * div t u) := by
          by_cases hh : u = Hour
          · subst hh
            rw [maxHours_eq] at hclamp
            unfold InInt64 MinInt64 MaxInt64 Hour at *
            omega
          · exact ⟨by unfold MinInt64; nlinarith, hfit hh⟩
        rw [wrap64_of_inInt64 hin]
    · split_ifs with hclamp
      · omega
      · rw [max_eq_left (by omega)]
        linarith
    · split_ifs with hclamp
      · -- clamped hours: more than `maxHours` of them are more than `MaxInt64 - Hour`
        obtain ⟨rfl, hgt⟩ := hclamp
        rw [maxHours_eq] at hgt
        unfold MaxInt64 Hour at *
        omega
      · rw [max_eq_left (by omega)]
        linarith

/-- A second and a nanosecond is sent in microseconds, rounded up. -/
theorem timeout_never_shortened_micros :
    ∃ c u n d, timeoutUnitToDuration c = some u ∧ 0 ≤ n ∧ n < 10 ^ 8 ∧
      EncodeDuration 1000000001 = FormatInt n ++ String.singleton c ∧
      (EncodeDuration 1000000001).length ≤ 9 ∧
      d = (if u = Hour ∧ n > maxHours then MaxInt64 else u * n) ∧
      decodeTimeout (EncodeDuration 1000000001) = .ok d ∧ max 1000000001 0 ≤ d ∧
      d - max 1000000001 0 < u :=
  timeout_never_shortened 1000000001 (by decide)

/-- A negative duration is sent as `0n`: it comes back as `0`, a nanosecond or more after
it. -/
theorem timeout_negative_lengthened :
    decodeTimeout (EncodeDuration (-1)) = .ok 0 ∧ ¬ ((0 : Int) - (-1) < Nanosecond) := by
  decide

/-! ## What `decodeTimeout` accepts -/

theorem timeoutUnitToDuration_cases {c : Char} {u : Int} (h : timeoutUnitToDuration c = some u) :
    u = Hour ∨ u = Minute ∨ u = Second ∨ u = Millisecond ∨ u = Microsecond ∨ u = Nanosecond := by
  unfold timeoutUnitToDuration at h
  split at h <;> cases h <;> simp

/-- A wrapped-around negative number of hours never lands on `MinInt64`: that would need
`2 ^ 50` to divide the number of hours. -/
theorem wrap64_hours_ne {t : Int} (h1 : -100000000 < t) (h2 : t < 0) :
    wrap64 (Hour * t) ≠ MinInt64 := by
  unfold wrap64 MinInt64 Hour
  intro h
  have h0 : (3600000000000 * t + 9223372036854775808) % 18446744073709551616 = 0 := by
    generalize 3600000000000 * t + 9223372036854775808 = x at h ⊢
    omega
  -- `2 ^ 64` divides `2 ^ 13 * (439453125 * t + 2 ^ 50)`, so `2 ^ 50` divides `t`
  have h51 : (2251799813685248 : Int) ∣ 439453125 * t + 1125899906842624 := by
    have hdvd : (8192 * 2251799813685248 : Int) ∣ 8192 * (439453125 * t + 1125899906842624) := by
      have := Int.dvd_of_emod_eq_zero h0
      convert this using 1 <;> ring
    exact Int.dvd_of_mul_dvd_mul_left (by decide) hdvd
  have h50 : (1125899906842624 : Int) ∣ 439453125 * t := by
    have h1 : (1125899906842624 : Int) ∣ 439453125 * t + 1125899906842624 :=
      (Dvd.intro 2 rfl : (1125899906842624 : Int) ∣ 2251799813685248).trans h51
    exact (Int.dvd_add_left (dvd_refl _)).mp h1
  obtain ⟨m, hm⟩ := Int.dvd_of_dvd_mul_right_of_gcd_one h50 (by rfl)
  clear h h0 h51 h50
  omega

/-- **What `decodeTimeout` accepts and computes.**  An accepted header is a unit letter after
at most eight characters that `ParseInt` reads as `t`; the duration returned is `t` units
clamped to `int64` except for a number of hours below `-maxHours`, which is not clamped and
whose product wraps around. -/
theorem decodeTimeout_accepts (s : String) (d : Int) (h : decodeTimeout s = .ok d) :
    ∃ t u, timeoutUnitToDuration (s.toList.getLastD ' ') = some u ∧
      parseInt (String.ofList (s.toList.take (s.length - 1))) = some t ∧
      (d = clamp64 (u * t) ↔ ¬ (u = Hour ∧ t < -maxHours)) := by
  unfold decodeTimeout at h
  dsimp only at h
  split_ifs at h with hshort hlong
  split at h
  · cases h
  rename_i u hu
  split at h
  · cases h
  rename_i t ht
  refine ⟨t, u, hu, ht, ?_⟩
  -- at most eight characters: fewer than `10 ^ 8` units either way
  have hbound : t.natAbs < 10 ^ 8 := by
    have hlen := parseInt_natAbs_lt ht
    have hbody : (String.ofList (s.toList.take (s.length - 1))).length ≤ 8 := by
      rw [← String.length_toList, String.toList_ofList, List.length_take, String.length_toList]
      omega
    have := Nat.pow_le_pow_right (show 0 < 10 by decide) hbody
    omega
  rw [maxHours_eq] at h ⊢
  split_ifs at h with hclamp
  · -- clamped hours: the product is above `MaxInt64`
    cases h
    obtain ⟨rfl, hgt⟩ := hclamp
    unfold clamp64 MinInt64 MaxInt64 Hour
    omega
  · cases h
    by_cases hwrap : u = Hour ∧ t < -2562047
    · -- the product is below `MinInt64`, where it clamps; the wrap does not reach it
      obtain ⟨rfl, hlt⟩ := hwrap
      have hlow : clamp64 (Hour * t) = MinInt64 := by
        unfold clamp64 MinInt64 Hour
        omega
      rw [hlow]
      exact iff_of_false (wrap64_hours_ne (t := t) (by omega) (by omega)) (fun h => h ⟨rfl, hlt⟩)
    · -- otherwise the product is in range
      have hhours : u = Hour → -2562047 ≤ t ∧ t ≤ 2562047 := fun hh =>
        ⟨by by_contra hc; exact hwrap ⟨hh, by omega⟩, by by_contra hc; exact hclamp ⟨hh, by omega⟩⟩
      have hin : InInt64 (u * t) := by
        unfold InInt64 MinInt64 MaxInt64
        rcases timeoutUnitToDuration_cases hu with rfl | rfl | rfl | rfl | rfl | rfl
        · obtain ⟨hlo, hhi⟩ := hhours rfl
          unfold Hour
          omega
        all_goals
          simp only [Minute, Second, Millisecond, Microsecond, Nanosecond]
          omega
      rw [wrap64_of_inInt64 hin, clamp64_of_inInt64 hin]
      exact iff_of_true rfl hwrap

/-- **A negative number of hours wraps around.**  `-9999999H`, a deadline in the past, is read
as about 28 years from now, where the product clamped to `int64` is `MinInt64`. -/
theorem decodeTimeout_negative_hours_wrap :
    decodeTimeout "-9999999H" = .ok 893491747419103232 ∧
      clamp64 (Hour * (-9999999)) = MinInt64 := by
  decide

end Transport
end GrpcGo
