import GrpcGo.Lib.ExceptBind
import GrpcGo.Lib.GoFloat
import GrpcGo.Lib.GoInt64
import GrpcGo.Lib.GoSlice
import GrpcGo.Status

/-!
# Retry policies and the backoff of `shouldRetry`

When an attempt of a client stream fails, `clientStream.shouldRetry` (`stream.go`) decides
whether to start another.  Unless the server paces the retry with a `grpc-retry-pushback-ms`
trailer, it waits a time drawn by `grpcrand.Int63n(int64(cur))`, where
`cur = min(InitialBackoff * BackoffMultiplier ^ k, MaxBackoff)` and `k` counts the retries
since the last pushback.  `Int63n` panics unless its bound is positive.

A retry policy comes from one of two places:
* the service config's JSON, through `parseDuration` and `convertRetryPolicy`
  (`service_config.go`), which check the signs of the durations and of the multiplier only;
* an xDS route, through `generateRetryConfig` (`xds.go` of the xDS client) and
  `retryConfigToPolicy` (`serviceconfig.go` of the xDS resolver), which fix the multiplier at
  two.

Float arithmetic is taken exactly (`GoFloat`), and durations are `Int` nanoseconds.

* `shouldRetry_eq_error`: the one way `shouldRetry` fails is the panic of `Int63n`, at a retry
  the policy allows, with a bound below one.
* `shouldRetry_frame`, `shouldRetry_of_committed`: what a call changes, and that it stops on a
  committed stream whose attempt has a transport stream (the retry machine of `Stream` uses
  both).
* `one_le_backoffBound`: with a multiplier of at least one, every bound is at least one.
* `xds_shouldRetry_ok`: so a policy built from an xDS route never makes `shouldRetry` panic.
* `halving_backoff_panics`: a JSON policy that `convertRetryPolicy` accepts, with a multiplier of
  one half, makes the second retry panic.
-/

namespace GrpcGo
namespace Retry

open GoStd Except

/-- `serviceconfig.RetryPolicy`: durations in nanoseconds, the multiplier a rational, and the
retryable codes as a list in place of Go's set. -/
structure RetryPolicy where
  MaxAttempts : Int
  InitialBackoff : Int
  MaxBackoff : Int
  BackoffMultiplier : ℚ
  RetryableStatusCodes : List Code

/-! ### The service config's JSON -/

/-- `jsonRetryPolicy` as the JSON decoder fills it. -/
structure jsonRetryPolicy where
  MaxAttempts : Int
  InitialBackoff : String
  MaxBackoff : String
  BackoffMultiplier : ℚ
  RetryableStatusCodes : List Code

/-- The fraction of a duration in `parseDuration`: at most nine digits, scaled to nanoseconds. -/
def parseFraction (malformed f : String) : Except String Int :=
  if 9 < f.length then .error malformed
  else
    match Strconv.ParseInt f 64 with
    | .error err => .error (malformed ++ ": " ++ err)
    | .ok v => .ok (v * 10 ^ (9 - f.length))

/-- `parseDuration` of `service_config.go`: seconds followed by `s`, with a whole part in the
range of `int32` and a fraction of at most nine digits, either of them optional but not both. -/
def parseDuration (s : String) : Except String Int := do
  let malformed := "malformed duration " ++ Strconv.quote s
  if !Strings.hasSuffix s "s" then throw malformed
  let ss := Strings.splitN (String.ofList s.toList.dropLast) '.' 3
  if 2 < ss.length then throw malformed
  let whole := ss.headD ""
  let frac := ss.getD 1 ""
  let d ← (if whole.isEmpty then pure 0 else
    ((Strconv.ParseInt whole 32).mapError fun err => malformed ++ ": " ++ err).map
      (· * Time.Second))
  let f ← (if frac.isEmpty then pure 0 else parseFraction malformed frac)
  -- `hasDigits`: one of the two parts was there
  if whole.isEmpty && frac.isEmpty then throw malformed
  return d + f

example : parseDuration "0.000000001s" = .ok 1 := by decide
example : parseDuration "1.5" = .error "malformed duration \"1.5\"" := by decide

/-- `convertRetryPolicy`: an illegal policy is logged and ignored (`none`); the number of
attempts is capped at five. -/
def convertRetryPolicy : Option jsonRetryPolicy → Except String (Option RetryPolicy)
  | none => .ok none
  | some jrp => do
    let ib ← parseDuration jrp.InitialBackoff
    let mb ← parseDuration jrp.MaxBackoff
    if jrp.MaxAttempts ≤ 1 || ib ≤ 0 || mb ≤ 0 || jrp.BackoffMultiplier ≤ 0 ||
        jrp.RetryableStatusCodes.isEmpty then
      return none
    return some ⟨min jrp.MaxAttempts 5, ib, mb, jrp.BackoffMultiplier, jrp.RetryableStatusCodes⟩

/-! ### xDS routes -/

/-- The `retry_back_off` of an xDS route's `RetryPolicy`, its intervals in nanoseconds. -/
structure RetryBackOffProto where
  BaseInterval : Option Int
  MaxInterval : Option Int

/-- The fields of an xDS route's `RetryPolicy` that `generateRetryConfig` reads. -/
structure RetryPolicyProto where
  RetryOn : String
  NumRetries : Option Nat
  RetryBackOff : Option RetryBackOffProto

/-- `xdsclient.RetryBackoff`. -/
structure RetryBackoff where
  BaseInterval : Int
  MaxInterval : Int

/-- `xdsclient.RetryConfig`. -/
structure RetryConfig where
  RetryOn : List Code
  NumRetries : Nat
  RetryBackoff : RetryBackoff

/-- The status code an entry of `retry_on` names, among those `generateRetryConfig` supports. -/
def retryOnCode (s : String) : Option Code :=
  match Strings.trimSpace (Strings.toLower s) with
  | "cancelled" => some .canceled
  | "deadline-exceeded" => some .deadlineExceeded
  | "internal" => some .internal
  | "resource-exhausted" => some .resourceExhausted
  | "unavailable" => some .unavailable
  | _ => none

/-- `num_retries`, one by default and at least one when given. -/
def retryNumRetries : Option Nat → Except String Nat
  | none => .ok 1
  | some n =>
    if n < 1 then .error ("retry_policy.num_retries = " ++ toString n ++ "; must be >= 1")
    else .ok n

/-- `base_interval`, 25ms without a `retry_back_off` and positive with one. -/
def retryBaseInterval : Option RetryBackOffProto → Except String Int
  | none => .ok (25 * Time.Millisecond)
  | some b =>
    let base := b.BaseInterval.getD 0
    if base ≤ 0 then
      .error ("retry_policy.base_interval = " ++ Time.durationString base ++ "; must be > 0")
    else .ok base

/-- `max_interval`, ten base intervals by default and positive when given. -/
def retryMaxInterval (backoff : Option RetryBackOffProto) (base : Int) : Except String Int :=
  match backoff.bind RetryBackOffProto.MaxInterval with
  | none => .ok (10 * base)
  | some max =>
    if max ≤ 0 then
      .error ("retry_policy.max_interval = " ++ Time.durationString max ++ "; must be > 0")
    else .ok max

/-- `generateRetryConfig`: a route's retry policy, or the empty `RetryConfig` when it names no
supported code. -/
def generateRetryConfig (RetrySupport : Bool) :
    Option RetryPolicyProto → Except String (Option RetryConfig)
  | none => .ok none
  | some rp =>
    if !RetrySupport then .ok none
    else do
      let RetryOn := (Strings.split rp.RetryOn ',').filterMap retryOnCode
      let NumRetries ← retryNumRetries rp.NumRetries
      let BaseInterval ← retryBaseInterval rp.RetryBackOff
      let MaxInterval ← retryMaxInterval rp.RetryBackOff BaseInterval
      if RetryOn.isEmpty then return some ⟨[], 0, ⟨0, 0⟩⟩
      return some ⟨RetryOn, NumRetries, ⟨BaseInterval, MaxInterval⟩⟩

/-- `retryConfigToPolicy` of the xDS resolver. -/
def retryConfigToPolicy (config : RetryConfig) : RetryPolicy :=
  ⟨config.NumRetries + 1, config.RetryBackoff.BaseInterval, config.RetryBackoff.MaxInterval, 2,
    config.RetryOn⟩

/-! ### `shouldRetry` -/

/-- `retryThrottler` of the client connection, its token counts taken as rationals. -/
structure retryThrottler where
  max : ℚ
  thresh : ℚ
  ratio : ℚ
  tokens : ℚ

/-- `retryThrottler.throttle()`: take a token and tell whether retries are throttled; a nil
throttler never throttles. -/
def throttle : Option retryThrottler → Bool × Option retryThrottler
  | none => (false, none)
  | some rt =>
    let tokens := max (rt.tokens - 1) 0
    (decide (tokens ≤ rt.thresh), some { rt with tokens })

/-- The error `shouldRetry` is given: a `*transport.NewStreamError` from creating the attempt's
stream, or any other error of an operation on it. -/
inductive attemptErr where
  | newStream (Err : GoError) (DoNotRetry DoNotTransparentRetry : Bool)
  | other (err : GoError)

/-- The error as the operation would return it (a `NewStreamError` reads as its `Err`). -/
def attemptErr.err : attemptErr → GoError
  | .newStream Err _ _ => Err
  | .other err => err

/-- The attempt's transport stream once its trailers are in, as `shouldRetry` reads it. -/
structure attemptStream where
  unprocessed : Bool
  trailersOnly : Bool
  /-- The values of the `grpc-retry-pushback-ms` trailer. -/
  pushback : List String
  code : Code

/-- The fields of a `clientStream` that `shouldRetry` reads or writes; `attempt` is
`cs.attempt.s`, nil when creating the stream failed. -/
structure clientStream where
  finished : Bool
  committed : Bool
  firstAttempt : Bool
  numRetries : Nat
  numRetriesSincePushback : Nat
  attempt : Option attemptStream
  disableRetry : Bool
  retryPolicy : Option RetryPolicy
  retryThrottler : Option retryThrottler

/-- `status.FromContextError` of the two errors a context ends with. -/
inductive ctxErr where
  | Canceled
  | DeadlineExceeded

/-- `status.FromContextError(ctx.Err())`. -/
def FromContextError : ctxErr → Status
  | .Canceled => ⟨.canceled, "context canceled"⟩
  | .DeadlineExceeded => ⟨.deadlineExceeded, "context deadline exceeded"⟩

/-- The check of `shouldRetry` on an error from creating the stream: `inl` is its decision,
`inr` the error the rest of `shouldRetry` goes on with. -/
def newStreamCheck : Option attemptStream → attemptErr → (Bool × Option GoError) ⊕ GoError
  | some _, e => .inr e.err
  -- not a `NewStreamError`: nothing was written, retry indefinitely
  | none, .other _ => .inl (true, none)
  | none, .newStream Err DoNotRetry DoNotTransparentRetry =>
    let err := toRPCErr Err
    if DoNotRetry then .inl (false, some err)
    else if !DoNotTransparentRetry then .inl (true, none)
    else .inr err

/-- What the server's pushback trailer says: stop (and whether that counts against the
throttler), or go on, with the pushback in milliseconds if there is one. -/
inductive pushbackOutcome where
  | stop (throttle : Bool)
  | go (pushback : Option Int)

/-- The pushback part of `shouldRetry`: a stream that is not trailers-only is not retried, one
pushback value that is a nonnegative integer paces the retry, and anything else stops it. -/
def serverPushback : Option attemptStream → pushbackOutcome
  | none => .go none
  | some s =>
    if !s.trailersOnly then .stop false
    else
      match s.pushback with
      | [] => .go none
      | [sp] =>
        match Strconv.parseInt sp with
        | some pushback => if pushback < 0 then .stop true else .go (some pushback)
        | none => .stop true
      | _ => .stop true

/-- `grpcrand.Int63n(n)`, with `r` the draw of the random source: a value in `[0, n)`, and the
panic of `math/rand` when `n` is not positive. -/
def Int63n (n : Int) (r : Nat) : Except Failure Int :=
  if n ≤ 0 then .error (.panic "invalid argument to Int63n") else .ok (r % n)

/-- The bound `shouldRetry` passes to `Int63n` at the `k`-th retry since the last pushback:
`int64(min(InitialBackoff * BackoffMultiplier ^ k, MaxBackoff))`. -/
def backoffBound (rp : RetryPolicy) (k : Nat) : Int :=
  let cur : ℚ := rp.InitialBackoff * rp.BackoffMultiplier ^ k
  int64OfFloat (if (rp.MaxBackoff : ℚ) < cur then rp.MaxBackoff else cur)

/-- The wait before the next attempt and the new count of retries since pushback: the pushback
when the server sent one, a draw below the backoff bound otherwise. -/
def retryDelay (rp : RetryPolicy) (pb : Option Int) (k r : Nat) : Except Failure (Int × Nat) :=
  match pb with
  | some pushback => .ok (Time.Millisecond * pushback, 0)
  | none => (Int63n (backoffBound rp k) r).map fun dur => (dur, k + 1)

/-- The timer of `shouldRetry` against the stream's context: `none` when the timer fires first. -/
def waitRetry (cs : clientStream) : Option ctxErr → clientStream × Bool × Option GoError
  | none => ({ cs with numRetries := cs.numRetries + 1 }, false, none)
  | some e => (cs, false, some (.status (FromContextError e)))

/-- `clientStream.shouldRetry(err)`: the stream after the call, whether a retry is transparent,
and the error to return (`none` to retry).  `ctxDone` says whether the context ends before the
backoff timer, and `r` is the random draw. -/
def shouldRetry (cs : clientStream) (e : attemptErr) (ctxDone : Option ctxErr) (r : Nat) :
    Except Failure (clientStream × Bool × Option GoError) :=
  match newStreamCheck cs.attempt e with
  | .inl decided => .ok (cs, decided)
  | .inr err =>
    let stop (cs : clientStream) : Except Failure (clientStream × Bool × Option GoError) :=
      .ok (cs, false, some err)
    if cs.finished || cs.committed then stop cs
    else if cs.firstAttempt && (cs.attempt.map attemptStream.unprocessed).getD false then
      .ok (cs, true, none)
    else if cs.disableRetry then stop cs
    else
      match serverPushback cs.attempt with
      | .stop false => stop cs
      | .stop true => stop { cs with retryThrottler := (throttle cs.retryThrottler).2 }
      | .go pb =>
        let code := match cs.attempt with
          | some s => s.code
          | none => (Convert err).code
        match cs.retryPolicy with
        | none => stop cs
        | some rp =>
          if !rp.RetryableStatusCodes.contains code then stop cs
          else
            -- counted as a failure for throttling only once the code is retryable
            let (throttled, rt) := throttle cs.retryThrottler
            let cs := { cs with retryThrottler := rt }
            if throttled then stop cs
            else if rp.MaxAttempts ≤ cs.numRetries + 1 then stop cs
            else
              (retryDelay rp pb cs.numRetriesSincePushback r).map fun d =>
                waitRetry { cs with numRetriesSincePushback := d.2 } ctxDone

/-! ### When `shouldRetry` fails -/

theorem Int63n_eq_error {n : Int} {r : Nat} {f : Failure} (h : Int63n n r = .error f) :
    n ≤ 0 ∧ f = .panic "invalid argument to Int63n" := by
  unfold Int63n at h
  split_ifs at h with hn
  · cases h
    exact ⟨hn, rfl⟩

theorem retryDelay_eq_error {rp : RetryPolicy} {pb : Option Int} {k r : Nat} {f : Failure}
    (h : retryDelay rp pb k r = .error f) :
    pb = none ∧ backoffBound rp k ≤ 0 ∧ f = .panic "invalid argument to Int63n" := by
  cases pb with
  | some pushback => simp [retryDelay] at h
  | none =>
    cases hd : Int63n (backoffBound rp k) r with
    | ok dur => simp [retryDelay, hd] at h
    | error f' =>
      simp only [retryDelay, hd, map_error'] at h
      cases h
      obtain ⟨hn, rfl⟩ := Int63n_eq_error hd
      exact ⟨rfl, hn, rfl⟩

/-- The one way `shouldRetry` fails: the panic of `Int63n`, at a retry that the policy's number
of attempts allows, when the backoff bound is below one. -/
theorem shouldRetry_eq_error {cs : clientStream} {e : attemptErr} {ctxDone : Option ctxErr}
    {r : Nat} {f : Failure} (h : shouldRetry cs e ctxDone r = .error f) :
    f = .panic "invalid argument to Int63n" ∧ ∃ rp, cs.retryPolicy = some rp ∧
      (cs.numRetries : Int) + 1 < rp.MaxAttempts ∧
      backoffBound rp cs.numRetriesSincePushback ≤ 0 := by
  unfold shouldRetry at h
  split at h
  · cases h
  -- the checks before the pushback return `ok` (`split_ifs` closes those branches)
  split_ifs at h
  split at h
  · cases h
  · cases h
  dsimp only at h
  split at h
  · cases h
  rename_i rp hrp
  split_ifs at h with hcode hthr hmax
  obtain ⟨-, hb, rfl⟩ := retryDelay_eq_error (map_eq_error_iff.mp h)
  exact ⟨rfl, rp, hrp, by omega, hb⟩

/-- So `shouldRetry` succeeds on a stream whose policy gives a bound of at least one whenever a
retry is allowed. -/
theorem shouldRetry_ok_of_bound {cs : clientStream} {rp : RetryPolicy}
    (hcs : cs.retryPolicy = some rp)
    (hb : (cs.numRetries : Int) + 1 < rp.MaxAttempts →
      1 ≤ backoffBound rp cs.numRetriesSincePushback)
    (e : attemptErr) (ctxDone : Option ctxErr) (r : Nat) :
    ∃ res, shouldRetry cs e ctxDone r = .ok res := by
  cases hs : shouldRetry cs e ctxDone r with
  | ok res => exact ⟨res, rfl⟩
  | error f =>
    obtain ⟨-, rp', hrp', hallowed, hbound⟩ := shouldRetry_eq_error hs
    rw [hcs, Option.some.injEq] at hrp'
    subst hrp'
    have := hb hallowed
    omega

/-! ### What `shouldRetry` changes -/

/-- What `shouldRetry` changes: the throttler, the count since the last pushback, and the number
of retries, which grows by one and only where the policy allows another attempt. -/
theorem shouldRetry_frame {cs cs' : clientStream} {e : attemptErr} {ctxDone : Option ctxErr}
    {r : Nat} {t : Bool} {res : Option GoError}
    (h : shouldRetry cs e ctxDone r = .ok (cs', t, res)) :
    cs'.finished = cs.finished ∧ cs'.committed = cs.committed ∧
      cs'.retryPolicy = cs.retryPolicy ∧
      (cs'.numRetries = cs.numRetries ∨ ∃ rp, cs.retryPolicy = some rp ∧
        (cs.numRetries : Int) + 1 < rp.MaxAttempts ∧ cs'.numRetries = cs.numRetries + 1) := by
  unfold shouldRetry at h
  split at h
  · cases h
    exact ⟨rfl, rfl, rfl, .inl rfl⟩
  split_ifs at h
  · -- finished or committed
    cases h
    exact ⟨rfl, rfl, rfl, .inl rfl⟩
  · -- transparent retry of an unprocessed first attempt
    cases h
    exact ⟨rfl, rfl, rfl, .inl rfl⟩
  · -- retries disabled
    cases h
    exact ⟨rfl, rfl, rfl, .inl rfl⟩
  split at h
  · cases h
    exact ⟨rfl, rfl, rfl, .inl rfl⟩
  · cases h
    exact ⟨rfl, rfl, rfl, .inl rfl⟩
  dsimp only at h
  split at h
  · cases h
    exact ⟨rfl, rfl, rfl, .inl rfl⟩
  rename_i rp hrp
  split_ifs at h with hcode hthr hmax
  · cases h
    exact ⟨rfl, rfl, rfl, .inl rfl⟩
  · cases h
    exact ⟨rfl, rfl, rfl, .inl rfl⟩
  · cases h
    exact ⟨rfl, rfl, rfl, .inl rfl⟩
  -- the backoff: the timer firing first is the one way to count a retry
  obtain ⟨d, -, hw⟩ := map_eq_ok_iff.mp h
  cases ctxDone with
  | none =>
    simp only [waitRetry, Prod.mk.injEq] at hw
    obtain ⟨rfl, -, -⟩ := hw
    exact ⟨rfl, rfl, rfl, .inr ⟨rp, hrp, by omega, rfl⟩⟩
  | some c =>
    simp only [waitRetry, Prod.mk.injEq] at hw
    obtain ⟨rfl, -, -⟩ := hw
    exact ⟨rfl, rfl, rfl, .inl rfl⟩

/-- On a committed stream whose attempt has a transport stream, `shouldRetry` stops with the
error it was given. -/
theorem shouldRetry_of_committed {cs : clientStream} (hs : cs.attempt.isSome = true)
    (hc : cs.committed = true) (e : attemptErr) (ctxDone : Option ctxErr) (r : Nat) :
    shouldRetry cs e ctxDone r = .ok (cs, false, some e.err) := by
  obtain ⟨s, hs⟩ := Option.isSome_iff_exists.mp hs
  simp [shouldRetry, hs, newStreamCheck, hc]

/-! ### The backoff bound -/

/-- The bound is at least one exactly when the capped backoff is. -/
theorem one_le_backoffBound_iff (rp : RetryPolicy) (k : Nat) :
    1 ≤ backoffBound rp k ↔
      1 ≤ min ((rp.InitialBackoff : ℚ) * rp.BackoffMultiplier ^ k) rp.MaxBackoff := by
  unfold backoffBound
  rw [one_le_int64OfFloat_iff]
  split_ifs with hcap
  · rw [min_eq_right hcap.le]
  · rw [min_eq_left (not_lt.mp hcap)]

/-- With a multiplier of at least one the backoff never shrinks, so every bound is at least
one. -/
theorem one_le_backoffBound {rp : RetryPolicy} (hm : 1 ≤ rp.BackoffMultiplier)
    (hi : 1 ≤ rp.InitialBackoff) (hmax : 1 ≤ rp.MaxBackoff) (k : Nat) :
    1 ≤ backoffBound rp k := by
  rw [one_le_backoffBound_iff]
  have hcur : (1 : ℚ) ≤ rp.InitialBackoff * rp.BackoffMultiplier ^ k :=
    one_le_mul_of_one_le_of_one_le (by exact_mod_cast hi) (one_le_pow₀ hm)
  exact le_min hcur (by exact_mod_cast hmax)

/-! ### Policies from the service config -/

/-- What `convertRetryPolicy` guarantees of a policy it accepts: the signs it checks and the cap
on attempts. -/
theorem convertRetryPolicy_valid {jrp : Option jsonRetryPolicy} {rp : RetryPolicy}
    (h : convertRetryPolicy jrp = .ok (some rp)) :
    1 < rp.MaxAttempts ∧ rp.MaxAttempts ≤ 5 ∧ 0 < rp.InitialBackoff ∧ 0 < rp.MaxBackoff ∧
      0 < rp.BackoffMultiplier ∧ rp.RetryableStatusCodes ≠ [] := by
  cases jrp with
  | none => cases h
  | some jrp =>
    simp only [convertRetryPolicy] at h
    obtain ⟨ib, -, h⟩ := bind_eq_ok_iff.mp h
    obtain ⟨mb, -, h⟩ := bind_eq_ok_iff.mp h
    split_ifs at h with hbad
    · cases h
    · simp only [Bool.or_eq_true, decide_eq_true_eq, List.isEmpty_iff, not_or, not_le] at hbad
      obtain ⟨⟨⟨⟨hatt, hib⟩, hmb⟩, hmul⟩, hcodes⟩ := hbad
      cases h
      exact ⟨lt_min hatt (by decide), min_le_right _ _, hib, hmb, hmul, hcodes⟩

/-- With a multiplier of at least one, a policy that `convertRetryPolicy` accepts never makes
`shouldRetry` panic. -/
theorem json_shouldRetry_ok {jrp : Option jsonRetryPolicy} {rp : RetryPolicy}
    (hrp : convertRetryPolicy jrp = .ok (some rp)) (hm : 1 ≤ rp.BackoffMultiplier)
    (cs : clientStream) (hcs : cs.retryPolicy = some rp) (e : attemptErr)
    (ctxDone : Option ctxErr) (r : Nat) :
    ∃ res, shouldRetry cs e ctxDone r = .ok res := by
  obtain ⟨-, -, hib, hmb, -, -⟩ := convertRetryPolicy_valid hrp
  exact shouldRetry_ok_of_bound hcs
    (fun _ => one_le_backoffBound hm hib hmb cs.numRetriesSincePushback) e ctxDone r

/-- A policy that `convertRetryPolicy` accepts, with a one-nanosecond initial backoff halved at
each retry: the first retryable failure waits below one nanosecond, and the second, which the
three attempts still allow, makes `Int63n` panic on the bound `int64(0.5) = 0`. -/
theorem halving_backoff_panics (err : GoError) (r : Nat) :
    ∃ rp, convertRetryPolicy (some ⟨3, "0.000000001s", "1s", 1 / 2, [.unavailable]⟩) =
        .ok (some rp) ∧
      ∃ cs1, shouldRetry ⟨false, false, true, 0, 0, some ⟨false, true, [], .unavailable⟩, false,
          some rp, none⟩ (.other err) none r = .ok (cs1, false, none) ∧
        shouldRetry { cs1 with firstAttempt := false } (.other err) none r =
          .error (.panic "invalid argument to Int63n") := by
  have hib : parseDuration "0.000000001s" = .ok 1 := by decide
  have hmb : parseDuration "1s" = .ok 1000000000 := by decide
  let rp : RetryPolicy := ⟨3, 1, 1000000000, 1 / 2, [.unavailable]⟩
  -- the first bound is one nanosecond; the second is half of one, which truncates to zero
  have hb0 : backoffBound rp 0 = 1 := by norm_num [rp, backoffBound, int64OfFloat]
  have hb1 : backoffBound rp 1 = 0 := by norm_num [rp, backoffBound, int64OfFloat]
  have hcodes : rp.RetryableStatusCodes = [.unavailable] := rfl
  have hmax : rp.MaxAttempts = 3 := rfl
  refine ⟨rp, ?_, ?_⟩
  · simp only [convertRetryPolicy, hib, hmb, ok_bind]
    norm_num [rp]
  · refine ⟨⟨false, false, true, 1, 1, some ⟨false, true, [], .unavailable⟩, false, some rp, none⟩,
      ?_, ?_⟩
    · simp [shouldRetry, newStreamCheck, serverPushback, throttle, retryDelay, hb0, Int63n,
        waitRetry, hcodes, hmax]
    · simp [shouldRetry, newStreamCheck, serverPushback, throttle, retryDelay, hb1, Int63n,
        waitRetry, hcodes, hmax]

/-! ### Policies from xDS routes -/

theorem retryBaseInterval_pos {b : Option RetryBackOffProto} {base : Int}
    (h : retryBaseInterval b = .ok base) : 0 < base := by
  cases b with
  | none =>
    cases h
    decide
  | some b =>
    simp only [retryBaseInterval] at h
    split_ifs at h with hb
    cases h
    omega

theorem retryMaxInterval_pos {b : Option RetryBackOffProto} {base max : Int} (hbase : 0 < base)
    (h : retryMaxInterval b base = .ok max) : 0 < max := by
  unfold retryMaxInterval at h
  split at h
  · cases h
    omega
  · split_ifs at h with hm
    cases h
    omega

/-- A retry config from an xDS route is the empty one, which allows no retry, or has positive
intervals. -/
theorem generateRetryConfig_intervals {RetrySupport : Bool} {rpp : Option RetryPolicyProto}
    {cfg : RetryConfig} (h : generateRetryConfig RetrySupport rpp = .ok (some cfg)) :
    cfg.NumRetries = 0 ∨ 0 < cfg.RetryBackoff.BaseInterval ∧ 0 < cfg.RetryBackoff.MaxInterval := by
  cases rpp with
  | none => cases h
  | some rp =>
    simp only [generateRetryConfig] at h
    split_ifs at h with hs hempty
    · cases h
    · -- no supported code: the empty config
      obtain ⟨n, -, h⟩ := bind_eq_ok_iff.mp h
      obtain ⟨base, -, h⟩ := bind_eq_ok_iff.mp h
      obtain ⟨max, -, h⟩ := bind_eq_ok_iff.mp h
      cases h
      exact .inl rfl
    · obtain ⟨n, -, h⟩ := bind_eq_ok_iff.mp h
      obtain ⟨base, hbase, h⟩ := bind_eq_ok_iff.mp h
      obtain ⟨max, hmax, h⟩ := bind_eq_ok_iff.mp h
      cases h
      have hb : 0 < base := retryBaseInterval_pos hbase
      exact .inr ⟨hb, retryMaxInterval_pos hb hmax⟩

/-- A retry policy built from an xDS route never makes `shouldRetry` panic: its multiplier is
two, and a config that allows a retry has positive intervals. -/
theorem xds_shouldRetry_ok {RetrySupport : Bool} {rpp : Option RetryPolicyProto}
    {cfg : RetryConfig} (hcfg : generateRetryConfig RetrySupport rpp = .ok (some cfg))
    (cs : clientStream) (hcs : cs.retryPolicy = some (retryConfigToPolicy cfg))
    (e : attemptErr) (ctxDone : Option ctxErr) (r : Nat) :
    ∃ res, shouldRetry cs e ctxDone r = .ok res := by
  refine shouldRetry_ok_of_bound hcs (fun hallowed => ?_) e ctxDone r
  -- a retry is allowed, so the config is not the empty one
  have hn : cfg.NumRetries ≠ 0 := by
    simp only [retryConfigToPolicy] at hallowed
    omega
  obtain ⟨hbase, hmax⟩ := (generateRetryConfig_intervals hcfg).resolve_left hn
  exact @one_le_backoffBound (retryConfigToPolicy cfg) (by norm_num [retryConfigToPolicy]) hbase
    hmax _

end Retry
end GrpcGo
