import GrpcGo.Lib.Machine

/-!
# Stream admission on the client (`internal/transport/http2_client.go`)

`http2Client.NewStream` admits a stream inside `controlBuf.executeAndPut`, so that the check and
the update are made under the control buffer's lock: `checkForStreamQuota` takes a unit of
`streamQuota` and the next stream id, and `checkForHeaderListSize` may still refuse the header
frame after that.  A call that finds no quota counts itself in `waitingStreams` on its first
try, and waits in a `select` for `streamsQuotaAvailable`, its context, GOAWAY or the transport's
end.  `closeStream` gives the stream's unit back (`addBackStreamQuota`), and a SETTINGS frame with
SETTINGS_MAX_CONCURRENT_STREAMS moves the quota by the change of the limit
(`updateStreamQuota`).  Each of these runs through `executeAndPut`, so none of them runs once
`controlBuf.finish` has set the buffer's error.

The model keeps the fields of `http2Client` these functions read and write, and the `NewStream`
calls in progress, each a goroutine of its caller, in the order they started.  `admission.step`
is one event of any of them, and outputs the stream id it hands out, if any.  A wake-up on
`streamsQuotaAvailable` is not modelled: a waiting call may try again at any time, which only
adds interleavings.
-/

namespace GrpcGo
namespace Transport

/-- `defaultMaxStreamsClient`. -/
def defaultMaxStreamsClient : UInt32 := 100

/-- The fields of `http2Client` that stream admission reads and writes; `cbErr` is whether
`controlBuf.err` is set. -/
structure http2Client where
  maxConcurrentStreams : UInt32
  streamQuota : Int
  waitingStreams : UInt32
  nextID : UInt32
  cbErr : Bool
  deriving DecidableEq, Repr

/-- `newHTTP2Client`'s values of the fields. -/
def newHTTP2Client : http2Client :=
  ⟨defaultMaxStreamsClient, defaultMaxStreamsClient.toNat, 0, 1, false⟩

namespace http2Client

/-- `checkForStreamQuota`: a call that finds no quota counts itself as waiting on its first try;
one that finds quota takes a unit of it and the next stream id, and stops counting itself as
waiting if it was. -/
def checkForStreamQuota (t : http2Client) (firstTry : Bool) : Option UInt32 × http2Client :=
  if t.streamQuota ≤ 0 then
    (none, if firstTry then { t with waitingStreams := t.waitingStreams + 1 } else t)
  else
    let t := if !firstTry then { t with waitingStreams := t.waitingStreams - 1 } else t
    let t := { t with streamQuota := t.streamQuota - 1 }
    (some t.nextID, { t with nextID := t.nextID + 2 })

/-- `addBackStreamQuota`. -/
def addBackStreamQuota (t : http2Client) : http2Client :=
  { t with streamQuota := t.streamQuota + 1 }

/-- `updateStreamQuota`: the quota moves by the change of the limit, as an `int64`. -/
def updateStreamQuota (t : http2Client) (maxStreams : UInt32) : http2Client :=
  let delta : Int := (maxStreams.toNat : Int) - t.maxConcurrentStreams.toNat
  { t with maxConcurrentStreams := maxStreams, streamQuota := t.streamQuota + delta }

end http2Client

/-- Where a `NewStream` call is. -/
inductive newStreamPhase
  /-- In the loop: before a try, or in the `select` waiting to try again. -/
  | looping
  /-- Returned its stream, which took a unit of quota and the id. -/
  | created (id : UInt32)
  /-- Took a unit of quota and the id, then failed `checkForHeaderListSize`: returned an error. -/
  | refused (id : UInt32)
  /-- Its stream was closed and `addBackStreamQuota` gave the unit back. -/
  | closed (id : UInt32)
  /-- Returned an error without taking quota. -/
  | failed
  deriving DecidableEq, Repr

/-- A `NewStream` call: its `firstTry` flag and where it is. -/
structure newStreamCall where
  firstTry : Bool
  phase : newStreamPhase
  deriving DecidableEq, Repr

/-- One iteration of `NewStream`'s loop: `executeAndPut` with `checkForStreamQuota` and then
`checkForHeaderListSize`, whose outcome for the call's header list is `hdrFits`.  The id taken,
if any, and the call and transport after it. -/
def tryNewStream (t : http2Client) (call : newStreamCall) (hdrFits : Bool) :
    Option UInt32 × newStreamCall × http2Client :=
  -- `executeAndPut` returns the buffer's error without running the checks
  if t.cbErr then (none, { call with phase := .failed }, t)
  else
    match t.checkForStreamQuota call.firstTry with
    | (none, t') => (none, { call with firstTry := false }, t')
    | (some id, t') =>
      if hdrFits then (some id, { call with phase := .created id }, t')
      else (some id, { call with phase := .refused id }, t')

/-- What happens next: a call starts, tries, or leaves the `select`; a stream is closed; a
SETTINGS frame sets SETTINGS_MAX_CONCURRENT_STREAMS; or the control buffer is finished.  Calls
are named by the order they started in. -/
inductive admissionEvent
  | newStream
  /-- Call `c` runs an iteration of its loop; `hdrFits` says whether its header list is within
  `maxSendHeaderListSize`. -/
  | tryStream (c : Nat) (hdrFits : Bool)
  /-- Call `c` leaves the `select`: its context is done, GOAWAY came or the transport closed. -/
  | giveUp (c : Nat)
  /-- `closeStream` on the stream of call `c`. -/
  | closeStream (c : Nat)
  /-- `handleSettings` with a limit: the one a frame sets, or `math.MaxUint32` on the first
  frame that sets none. -/
  | settings (maxStreams : UInt32)
  /-- `controlBuf.finish`. -/
  | finish
  deriving DecidableEq, Repr

/-- The client transport's admission fields and the `NewStream` calls made on it. -/
structure admission where
  t : http2Client
  calls : List newStreamCall
  deriving DecidableEq, Repr

/-- No call yet on a new transport. -/
def newAdmission : admission := ⟨newHTTP2Client, []⟩

namespace admission

/-- One event, and the stream id it hands out, if any. -/
def step (a : admission) : admissionEvent → List UInt32 × admission
  | .newStream => ([], { a with calls := a.calls ++ [⟨true, .looping⟩] })
  | .tryStream c hdrFits =>
    match a.calls[c]? with
    | some call =>
      if call.phase = .looping then
        let r := tryNewStream a.t call hdrFits
        (r.1.toList, ⟨r.2.2, a.calls.set c r.2.1⟩)
      else ([], a)
    | none => ([], a)
  | .giveUp c =>
    match a.calls[c]? with
    | some call =>
      if call.phase = .looping ∧ call.firstTry = false then
        ([], { a with calls := a.calls.set c { call with phase := .failed } })
      else ([], a)
    | none => ([], a)
  | .closeStream c =>
    match a.calls[c]? with
    | some ⟨firstTry, .created id⟩ =>
      -- `closeStream` runs `addBackStreamQuota` through `executeAndPut`
      if a.t.cbErr then ([], a)
      else ([], ⟨a.t.addBackStreamQuota, a.calls.set c ⟨firstTry, .closed id⟩⟩)
    | _ => ([], a)
  | .settings maxStreams =>
    if a.t.cbErr then ([], a) else ([], { a with t := a.t.updateStreamQuota maxStreams })
  | .finish => ([], { a with t := { a.t with cbErr := true } })

end admission

end Transport
end GrpcGo
