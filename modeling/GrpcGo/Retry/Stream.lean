import GrpcGo.Lib.Machine
import GrpcGo.Retry.Backoff

/-!
# Retries of a client stream: commit, buffer and replay

A `clientStream` (`stream.go`) runs each operation through `withRetry`.  Holding `cs.mu`, the
call reads the current attempt, releases the lock while the operation runs on it, and takes the
lock back to look at the result:
* if another attempt has been started meanwhile, it runs the operation again on that one;
* on success it buffers the operation for replay (`bufferForRetryLocked`) or commits
  (`commitAttemptLocked`), as its caller asks;
* on failure it enters `retryLocked`.  That loop asks `shouldRetry`, commits when told to stop,
  and otherwise makes a new attempt, replays the buffer on it (`replayBufferLocked`), and goes
  round again if the replay fails.  The lock is held for the whole loop.

A committed stream runs each operation on its attempt and hands back what it returns.  The
buffer commits the stream by itself once its bytes pass `maxRetryRPCBufferSize`.

The model is the machine `step` of the `Machine` library.  Its events (`action`) are:
* a caller's call;
* the return of an operation running outside the lock;
* one round of `retryLocked`;
* `finish`;
* the commit of `Context` and `Trailer`.

Its outputs are the `event`s that the retry properties speak of.  The results of operations,
of `shouldRetry`'s inputs and of creating an attempt are what the actions carry.  An attempt
is known by its number, and the operations by a type `Op` of the caller's.

`newClientStream` creates attempt `0` and starts the operation that creates its transport
stream.  That operation also heads the buffer once it succeeds, so a replay recreates the
transport stream first.  A caller's operation on an attempt with no transport stream
dereferences nil and panics.  After a panic the machine does nothing.

`StreamSpec` proves three properties of every run of the machine:
* `numRetries` never passes `MaxAttempts - 1`;
* no attempt is made once `commitAttemptLocked` has run, including the commit caused by a
  buffer that overflows;
* each attempt that `retryLocked` makes starts with the operations `bufferForRetryLocked`
  recorded before it, and the next thing the stream does is replay them on it, in order.  The
  replay covers all of them, or stops at one that fails.
-/

namespace GrpcGo
namespace Retry

open GoStd

variable {Op : Type}

/-- An operation `withRetry` runs on an attempt: creating the attempt's transport stream
(`a.newStream()`), or one of the caller's. -/
inductive csOp (Op : Type) where
  | newStream
  | op (o : Op)

/-- Whether an operation creates the attempt's transport stream. -/
def csOp.isNewStream : csOp Op → Bool
  | .newStream => true
  | .op _ => false

/-- What `withRetry` does when its operation succeeds: `bufferForRetryLocked(sz, op)`
(`SendMsg`, `CloseSend` and the stream's creation) or `commitAttemptLocked` (`Header` and
`RecvMsg`). -/
inductive successAction where
  | buffer (sz : Int)
  | commit

/-- A `withRetry` call whose operation runs outside `cs.mu`, on the attempt it read. -/
structure pendingOp (Op : Type) where
  op : csOp Op
  onSuccess : successAction
  attempt : Nat

/-- What the stream does, as the retry properties speak of it. -/
inductive event (Op : Type) where
  /-- `retryLocked` made attempt `k`, whose buffer to replay is `B`. -/
  | newAttempt (k : Nat) (B : List (csOp Op))
  /-- `replayBufferLocked` ran `R` on attempt `k`; `failed` when the last of them failed. -/
  | replayed (k : Nat) (R : List (csOp Op)) (failed : Bool)
  /-- `withRetry` ran an operation on attempt `k`. -/
  | run (k : Nat) (op : csOp Op)
  /-- `bufferForRetryLocked` recorded an operation. -/
  | buffered (op : csOp Op)
  /-- `commitAttemptLocked` ran. -/
  | commit

/-- The client stream as its retry code sees it. -/
structure retryStream (Op : Type) where
  /-- The fields `shouldRetry` reads and writes. -/
  cs : clientStream
  /-- The number of `cs.attempt`. -/
  current : Nat
  /-- `cs.attempt.s != nil`. -/
  hasStream : Bool
  /-- `newClientStream` has handed the stream to its caller. -/
  created : Bool
  buffer : List (csOp Op)
  bufferSize : Int
  maxRetryRPCBufferSize : Int
  /-- The `withRetry` calls whose operations are running. -/
  running : List (pendingOp Op)
  /-- The call inside `retryLocked`, which holds `cs.mu`, with the error it retries. -/
  retrying : Option (pendingOp Op × attemptErr)
  panicked : Bool

/-- `commitAttemptLocked`. -/
def commitAttemptLocked (s : retryStream Op) : List (event Op) × retryStream Op :=
  ([.commit], { s with cs := { s.cs with committed := true }, buffer := [] })

/-- `bufferForRetryLocked(sz, op)`: nothing once committed, a commit when the buffer's bytes
pass the limit, and otherwise the operation joins the buffer. -/
def bufferForRetryLocked (s : retryStream Op) (sz : Int) (op : csOp Op) :
    List (event Op) × retryStream Op :=
  if s.cs.committed then ([], s)
  else if s.maxRetryRPCBufferSize < s.bufferSize + sz then
    commitAttemptLocked { s with bufferSize := s.bufferSize + sz }
  else ([.buffered op], { s with bufferSize := s.bufferSize + sz, buffer := s.buffer ++ [op] })

/-- The top of the loop of `withRetry`: the operation runs on the current attempt, handing its
result straight back on a committed stream and otherwise running outside the lock. -/
def startOp (s : retryStream Op) (f : pendingOp Op) : List (event Op) × retryStream Op :=
  let ran : List (event Op) := [.run s.current f.op]
  -- a caller's operation on an attempt with no transport stream dereferences nil
  if !f.op.isNewStream && !s.hasStream then (ran, { s with panicked := true })
  else if s.cs.committed then (ran, s)
  else (ran, { s with running := s.running ++ [{ f with attempt := s.current }] })

/-- A transport stream created on the current attempt is the attempt's, and `newClientStream`
returns with it. -/
def streamCreated (s : retryStream Op) (op : csOp Op) : retryStream Op :=
  if op.isNewStream then { s with hasStream := true, created := true } else s

/-- An operation succeeded on the current attempt: what `withRetry` was asked to do. -/
def succeed (s : retryStream Op) (f : pendingOp Op) : List (event Op) × retryStream Op :=
  match f.onSuccess with
  | .commit => commitAttemptLocked (streamCreated s f.op)
  | .buffer sz => bufferForRetryLocked (streamCreated s f.op) sz f.op

/-- The `i`-th running operation returns (`none` for success, an `io.EOF` whose status is
`OK` included) and `withRetry` takes the lock back. -/
def complete (s : retryStream Op) (i : Nat) (result : Option attemptErr) :
    List (event Op) × retryStream Op :=
  match s.running[i]? with
  | none => ([], s)
  | some f =>
    let s := { s with running := s.running.eraseIdx i }
    -- "We started another attempt already."
    if f.attempt ≠ s.current then startOp s f
    else
      match result with
      | none => succeed s f
      | some err => ([], { s with retrying := some (f, err) })

/-- `replayBufferLocked`: the buffer, or its operations up to the `j`-th, which failed. -/
def replayBufferLocked (buffer : List (csOp Op)) :
    Option (Nat × attemptErr) → List (csOp Op) × Option attemptErr
  | none => (buffer, none)
  | some (j, err) => (buffer.take (j + 1), some err)

/-- The operations of a replay that succeeded. -/
def replaySucceeded (R : List (csOp Op)) : Option attemptErr → List (csOp Op)
  | none => R
  | some _ => R.dropLast

/-- `newAttemptLocked` has made the next attempt: the buffer is replayed on it, and after a
replay that succeeded the operation runs on it. -/
def newAttempt (s : retryStream Op) (f : pendingOp Op) (replayFail : Option (Nat × attemptErr)) :
    List (event Op) × retryStream Op :=
  let k := s.current + 1
  let R := (replayBufferLocked s.buffer replayFail).1
  let err := (replayBufferLocked s.buffer replayFail).2
  let made : List (event Op) := [.newAttempt k s.buffer, .replayed k R err.isSome]
  let s' := { s with current := k, hasStream := (replaySucceeded R err).any csOp.isNewStream }
  match err with
  | some err => (made, { s' with retrying := some (f, err) })
  | none => (made ++ (startOp { s' with retrying := none } f).1,
      (startOp { s' with retrying := none } f).2)

/-- One round of the loop of `retryLocked`, on the attempt's transport stream `info` when it
has one: stop (commit, or a panic of `shouldRetry`), give up when no new attempt can be made,
or make one and replay the buffer on it. -/
def retryLocked (s : retryStream Op) (info : attemptStream) (ctxDone : Option ctxErr) (r : Nat)
    (newAttemptOk : Bool) (replayFail : Option (Nat × attemptErr)) :
    List (event Op) × retryStream Op :=
  match s.retrying with
  | none => ([], s)
  | some (f, lastErr) =>
    let view := { s.cs with attempt := if s.hasStream then some info else none }
    match shouldRetry view lastErr ctxDone r with
    | .error _ => ([], { s with panicked := true })
    | .ok (cs, _, some _) => commitAttemptLocked { s with cs, retrying := none }
    | .ok (cs, _, none) =>
      let s := { s with cs := { cs with firstAttempt := false } }
      if newAttemptOk then newAttempt s f replayFail
      else ([], { s with retrying := none })

/-- `clientStream.finish`: once, it marks the stream finished and commits. -/
def finish (s : retryStream Op) : List (event Op) × retryStream Op :=
  if s.cs.finished then ([], s)
  else commitAttemptLocked { s with cs := { s.cs with finished := true } }

/-- What may happen next to a client stream. -/
inductive action (Op : Type) where
  /-- A caller's `withRetry` starts its operation. -/
  | call (o : Op) (onSuccess : successAction)
  /-- The `i`-th running operation returns. -/
  | complete (i : Nat) (result : Option attemptErr)
  /-- A round of `retryLocked`. -/
  | retry (info : attemptStream) (ctxDone : Option ctxErr) (r : Nat) (newAttemptOk : Bool)
      (replayFail : Option (Nat × attemptErr))
  | finish
  /-- `Context` or `Trailer` commits the attempt. -/
  | commitAttempt

/-- The retry machine. -/
def step (s : retryStream Op) (a : action Op) : List (event Op) × retryStream Op :=
  if s.panicked then ([], s)
  else
    match a with
    | .call o onSuccess => startOp s ⟨.op o, onSuccess, s.current⟩
    | .complete i result => complete s i result
    | .retry info ctxDone r newAttemptOk replayFail =>
      retryLocked s info ctxDone r newAttemptOk replayFail
    | .finish => finish s
    | .commitAttempt => commitAttemptLocked s

/-- When each action can happen.  Nothing but the loop of `retryLocked` runs while it holds the
lock, the caller has the stream only once `newClientStream` returns, and a replay fails at one
of the buffer's operations. -/
def allowed (s : retryStream Op) : action Op → Prop
  | .call _ _ => s.created = true ∧ s.retrying.isNone = true
  | .complete i _ => s.retrying.isNone = true ∧ i < s.running.length
  | .retry _ _ _ _ replayFail =>
    s.retrying.isSome = true ∧ (replayFail.map Prod.fst).all (· < s.buffer.length) = true
  | .finish => s.retrying.isNone = true ∧ (s.created = true ∨ s.running.isEmpty = true)
  | .commitAttempt => s.created = true ∧ s.retrying.isNone = true

instance (s : retryStream Op) (a : action Op) : Decidable (allowed s a) :=
  match a with
  | .call _ _ | .complete _ _ | .retry _ _ _ _ _ | .finish | .commitAttempt =>
    inferInstanceAs (Decidable (_ ∧ _))

/-- The stream `newClientStream` makes: attempt `0`, on which the creation of its transport
stream runs.  With retries disabled the stream has no throttler. -/
def newClientStream (rp : Option RetryPolicy) (rt : Option retryThrottler) (disableRetry : Bool)
    (maxRetryRPCBufferSize : Int) : retryStream Op :=
  { cs := ⟨false, false, true, 0, 0, none, disableRetry, rp, if disableRetry then none else rt⟩
    current := 0
    hasStream := false
    created := false
    buffer := []
    bufferSize := 0
    maxRetryRPCBufferSize
    running := [⟨.newStream, .buffer 0, 0⟩]
    retrying := none
    panicked := false }

end Retry
end GrpcGo
