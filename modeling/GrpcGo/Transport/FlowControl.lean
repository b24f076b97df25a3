import GrpcGo.Lib.GoBinary
import GrpcGo.Lib.Machine

/-!
# Inbound flow control of a stream (`internal/transport/flowcontrol.go`)

`inFlow` is the receiver's account of a stream's window.  `onData` counts the bytes of each DATA
frame as `pendingData` and refuses a frame that overruns the window; `onRead` moves the bytes the
application has read to `pendingUpdate` and returns them as a WINDOW_UPDATE once they reach a
quarter of the limit; `maybeAdjust` grants `delta` more when the application asks to read more
than the sender can send; `newLimit` raises the limit.  All four compute in `uint32`, and
`maybeAdjust` compares two differences converted to `int32`.

`recvStream` is the client stream's side of it: the events of `http2Client` and `Stream` that
call these operations (`Stream.Read` calls `requestRead`, which is `adjustWindow`; each
successful `transportReader.Read` calls `windowHandler`, which is `updateWindow`; `handleData`
calls `onData`, and `onRead` for the padding of a padded frame; `updateFlowControl` calls
`newLimit` after a new BDP estimate), as a machine in the sense of `Machine`.  Its outputs are
the window increments the stream grants the sender.  `Allowed` is what the transport and the
peer can do next: the application reads one `Stream.Read` at a time, it reads only data that has
arrived, a DATA frame is shorter than `2^24` bytes (the frame header's length field), and the
BDP estimator only raises the limit, to at most `bdpLimit`.
-/

namespace GrpcGo
namespace Transport

open GoStd

/-- `maxWindowSize`, `math.MaxInt32`: the largest window HTTP/2 allows. -/
def maxWindowSize : UInt32 := 2147483647

/-- `bdpLimit`, `(1 << 20) * 16`: the largest window the BDP estimator asks for. -/
def bdpLimit : UInt32 := 16777216

/-- `inFlow`. -/
structure inFlow where
  limit : UInt32
  pendingData : UInt32
  pendingUpdate : UInt32
  delta : UInt32
  deriving DecidableEq, Repr

namespace inFlow

/-- `f.newLimit(n)`: the increment, and the account with the new limit. -/
def newLimit (f : inFlow) (n : UInt32) : UInt32 × inFlow :=
  let d := n - f.limit
  (d, { f with limit := n })

/-- `f.maybeAdjust(n)`: the extra window granted for a read of `n` bytes (`0` for none). -/
def maybeAdjust (f : inFlow) (n : UInt32) : UInt32 × inFlow :=
  let n := if n > UInt32.ofNat MaxInt32 then UInt32.ofNat MaxInt32 else n
  let estSenderQuota := (f.limit - (f.pendingData + f.pendingUpdate)).toInt32
  let estUntransmittedData := (n - f.pendingData).toInt32
  if estUntransmittedData > estSenderQuota then
    let delta := if f.limit + n > maxWindowSize then maxWindowSize - f.limit else n
    (delta, { f with delta })
  else (0, f)

/-- `f.onData(n)`: the error for a frame that overruns the window, if it does. -/
def onData (f : inFlow) (n : UInt32) : Option String × inFlow :=
  let f := { f with pendingData := f.pendingData + n }
  if f.pendingData + f.pendingUpdate > f.limit + f.delta then
    let limit := f.limit
    let rcvd := f.pendingData + f.pendingUpdate
    (some ("received " ++ toString rcvd ++ "-bytes data exceeding the limit " ++ toString limit ++
      " bytes"), f)
  else (none, f)

/-- `onData` counts the frame whether or not it refuses it. -/
theorem onData_snd (f : inFlow) (n : UInt32) :
    (f.onData n).2 = { f with pendingData := f.pendingData + n } := by
  simp only [onData]
  split_ifs <;> rfl

/-- `f.onRead(n)`: the window update to send (`0` for none). -/
def onRead (f : inFlow) (n : UInt32) : UInt32 × inFlow :=
  if f.pendingData = 0 then (0, f)
  else
    let f := { f with pendingData := f.pendingData - n }
    -- the read first uses up the extra window `maybeAdjust` granted
    let (n, f) : UInt32 × inFlow :=
      if n > f.delta then (n - f.delta, { f with delta := 0 })
      else (0, { f with delta := f.delta - n })
    let f := { f with pendingUpdate := f.pendingUpdate + n }
    if f.pendingUpdate ≥ f.limit / 4 then (f.pendingUpdate, { f with pendingUpdate := 0 })
    else (0, f)

end inFlow

/-! ## A client stream's reading side -/

/-- A client stream as its inbound flow control sees it: its `fc`, how many bytes the
application's `Stream.Read` in progress still waits for (the `io.ReadFull` loop it is in; `0`
when it is not reading), whether `transportReader.er` is set, and whether the transport has
closed the stream. -/
structure recvStream where
  fc : inFlow
  readLeft : Nat
  er : Bool
  closed : Bool
  deriving DecidableEq, Repr

/-- The events that reach a stream's flow control. -/
inductive FlowEvent
  /-- The application calls `s.Read(p)` with `len(p) = n`. -/
  | read (n : UInt32)
  /-- A `transportReader.Read` of that `Stream.Read` returns `k` bytes. -/
  | readReturned (k : UInt32)
  /-- A `transportReader.Read` of that `Stream.Read` returns an error. -/
  | readFailed
  /-- `handleData` gets a DATA frame of `size` bytes, `dataLen` of them data, with the padded
  flag `padded`. -/
  | data (size dataLen : UInt32) (padded : Bool)
  /-- `updateFlowControl(n)` after a new BDP estimate. -/
  | newLimit (n : UInt32)
  deriving DecidableEq, Repr

/-- `if w > 0 { t.controlBuf.put(&outgoingWindowUpdate{...}) }`: the increment sent, if any. -/
def sendIncrement {α : Type} [Zero α] [LT α] [DecidableRel (· < · : α → α → Prop)] (w : α) :
    List α :=
  if w > 0 then [w] else []

/-- The stream of a new client stream: `inFlow{limit: uint32(t.initialWindowSize)}`. -/
def recvStream.init (initialWindowSize : UInt32) : recvStream :=
  ⟨⟨initialWindowSize, 0, 0, 0⟩, 0, false, false⟩

/-- What the transport does on an event: the increments it grants the sender, and the stream
after. -/
def recvStream.step (s : recvStream) : FlowEvent → List UInt32 × recvStream
  | .read n =>
    -- `Stream.Read` returns at once, without `requestRead`, once a read has failed
    if s.er then ([], s)
    else
      let (w, fc) := s.fc.maybeAdjust n
      (sendIncrement w, { s with fc, readLeft := n.toNat })
  | .readReturned k =>
    let (w, fc) := s.fc.onRead k
    (sendIncrement w, { s with fc, readLeft := s.readLeft - k.toNat })
  | .readFailed => ([], { s with er := true, readLeft := 0 })
  | .data size dataLen padded =>
    if size > 0 then
      match s.fc.onData size with
      -- `closeStream` with `ErrCodeFlowControl`
      | (some _, fc) => ([], { s with fc, closed := true })
      | (none, fc) =>
        if padded then
          let (w, fc) := fc.onRead (size - dataLen)
          (sendIncrement w, { s with fc })
        else ([], { s with fc })
    else ([], s)
  | .newLimit n =>
    -- the increment reaches the sender as the SETTINGS_INITIAL_WINDOW_SIZE change that
    -- `updateFlowControl` sends with it
    let (d, fc) := s.fc.newLimit n
    ([d], { s with fc })

/-- What can happen next on an open stream. -/
def recvStream.Allowed (s : recvStream) : FlowEvent → Prop
  | .read _ => s.closed = false ∧ s.readLeft = 0
  | .readReturned k => s.closed = false ∧ 0 < s.readLeft ∧ k.toNat ≤ s.readLeft ∧
      k ≤ s.fc.pendingData
  | .readFailed => s.closed = false ∧ 0 < s.readLeft
  | .data size dataLen _ => s.closed = false ∧ size.toNat < 2 ^ 24 ∧ dataLen ≤ size
  | .newLimit n => s.closed = false ∧ s.fc.limit ≤ n ∧ n ≤ bdpLimit

instance (s : recvStream) : (e : FlowEvent) → Decidable (s.Allowed e)
  | .read _ => inferInstanceAs (Decidable (_ ∧ _))
  | .readReturned _ => inferInstanceAs (Decidable (_ ∧ _))
  | .readFailed => inferInstanceAs (Decidable (_ ∧ _))
  | .data _ _ _ => inferInstanceAs (Decidable (_ ∧ _))
  | .newLimit _ => inferInstanceAs (Decidable (_ ∧ _))

/-- The bytes of DATA an event brings. -/
def FlowEvent.received : FlowEvent → Nat
  | .data size _ _ => size.toNat
  | _ => 0

/-- The sender's window as the peer counts it after the events `es`, in which the stream
granted `granted`: the initial window, plus every increment, less every byte of DATA. -/
def senderWindow (initialWindowSize : UInt32) (es : List FlowEvent) (granted : List UInt32) :
    Int :=
  initialWindowSize.toNat + (granted.map fun w => (w.toNat : Int)).sum -
    (es.map fun e => (e.received : Int)).sum

end Transport
end GrpcGo
