import GrpcGo.Lib.GoMap
import GrpcGo.Lib.GoStrings
import GrpcGo.Lib.Machine

/-!
# The loopy writer (`internal/transport/controlbuf.go`)

`loopyWriter` is the goroutine that owns a transport's writing side.  It takes control items
off the `controlBuffer` and `handle`s them (registering and cleaning up streams, queueing a
stream's data, applying window updates and settings), and between items it calls
`processData`, which takes the first stream off `activeStreams`, writes at most one DATA frame of
it within the stream's and the connection's quota, and puts the stream back, parks it to wait
for quota, or marks it empty.

The model keeps what this bookkeeping reads and writes.  A stream's `itl` holds the data still
to write, as `dataFrame`s whose `h` and `d` are cut down as they are written, and, on a server,
the trailers queued behind them.  `activeStreams`, a doubly linked list of `*outStream` in the
source, is the list of the streams' ids in order; `estdStreams` is the Go map from id to stream.
A handler's error, which ends `loopy.run`, is recorded in `err`, after which loopy handles
nothing more; so is a failed type assertion in `processData`.

`LoopyEvent` is what loopy does next: handle a control item or call `processData`.  The
frames loopy writes are the outputs of `loopyWriter.step`, a machine in the sense of `Machine`.
-/

namespace GrpcGo
namespace Transport

open GoStd

/-- `http2MaxFrameLen`. -/
def http2MaxFrameLen : Nat := 16384

/-- `defaultWindowSize`. -/
def defaultWindowSize : UInt32 := 65535

/-- `side`. -/
inductive side
  | clientSide
  | serverSide
  deriving DecidableEq, Repr

/-- `outStreamState`. -/
inductive outStreamState
  | active
  | empty
  | waitingOnStreamQuota
  deriving DecidableEq, Repr

/-- An item of a stream's `itl`. -/
inductive outItem
  /-- A `*dataFrame`, with what is left of its `h` and `d`. -/
  | dataFrame (streamID : Nat) (endStream : Bool) (h d : Bytes)
  /-- A server's `*headerFrame` of trailers, queued behind the stream's data; `rst` is its
  `cleanup.rst`. -/
  | headerFrame (streamID : Nat) (endStream : Bool) (rst : Bool)
  deriving DecidableEq, Repr

/-- `outStream`. -/
structure outStream where
  id : Nat
  state : outStreamState
  itl : List outItem
  bytesOutStanding : Int
  deriving DecidableEq, Repr

/-- The frames loopy writes.  `headers` is the HEADERS frame of a header block with its
CONTINUATIONs. -/
inductive Frame
  | data (streamID : Nat) (endStream : Bool) (data : Bytes)
  | headers (streamID : Nat) (endStream : Bool)
  | rstStream (streamID : Nat)
  | windowUpdate (streamID : Nat) (increment : UInt32)
  | settings
  | settingsAck
  | ping (ack : Bool)
  deriving DecidableEq, Repr

/-- An `http2.Setting` as `applySettings` reads it. -/
inductive Setting
  /-- `SETTINGS_INITIAL_WINDOW_SIZE`, with the order in which `range l.estdStreams` visits the
  streams (Go leaves it unspecified). -/
  | initialWindowSize (val : UInt32) (order : List Nat)
  | headerTableSize (val : UInt32)
  | other
  deriving DecidableEq, Repr

/-- What a client's `hdr.initStream(id)` returns. -/
inductive initResult
  | ok
  | errStreamDrain
  | errConnClosing
  deriving DecidableEq, Repr

/-- The control items loopy handles. -/
inductive controlItem
  | incomingWindowUpdate (streamID : Nat) (increment : UInt32)
  | outgoingWindowUpdate (streamID : Nat) (increment : UInt32)
  | incomingSettings (ss : List Setting)
  | outgoingSettings
  /-- `rst` is `cleanup.rst` of a server's trailers. -/
  | headerFrame (streamID : Nat) (endStream : Bool) (initStream : initResult) (rst : Bool)
  | registerStream (streamID : Nat)
  | cleanupStream (streamID : Nat) (rst : Bool)
  | earlyAbortStream (streamID : Nat)
  | incomingGoAway
  | dataFrame (streamID : Nat) (endStream : Bool) (h d : Bytes)
  | ping (ack : Bool)
  /-- A `*goAway`; `draining` is what the server's `ssGoAwayHandler` returns. -/
  | goAway (draining : Bool)
  | outFlowControlSizeRequest
  deriving DecidableEq, Repr

/-- `ErrConnClosing`. -/
def ErrConnClosing : String := "transport is closing"

/-- The panic of the type assertion `str.itl.peek().(*dataFrame)`. -/
def errNotDataFrame : String := "interface conversion: interface is not *transport.dataFrame"

/-- `loopyWriter`. -/
structure loopyWriter where
  side : side
  sendQuota : UInt32
  oiws : UInt32
  estdStreams : List (Nat × outStream)
  activeStreams : List Nat
  draining : Bool
  err : Option String
  deriving DecidableEq, Repr

/-- `newLoopyWriter(s, ...)`. -/
def newLoopyWriter (s : side) : loopyWriter :=
  ⟨s, defaultWindowSize, defaultWindowSize, [], [], false, none⟩

namespace loopyWriter

/-- The stream `id` of `estdStreams` replaced by `str`, as the source mutates it in place. -/
def setStream (l : loopyWriter) (id : Nat) (str : outStream) : loopyWriter :=
  { l with estdStreams := Map.insert id str l.estdStreams }

/-- `l.activeStreams.enqueue(str)`. -/
def enqueue (l : loopyWriter) (id : Nat) : loopyWriter :=
  { l with activeStreams := l.activeStreams ++ [id] }

/-- `l.writeHeader(streamID, endStream, ...)`. -/
def writeHeader (streamID : Nat) (endStream : Bool) : List Frame :=
  [.headers streamID endStream]

/-- `delete(l.estdStreams, streamID)` and `str.deleteSelf()`, for an established stream. -/
def deleteStream (l : loopyWriter) (streamID : Nat) : loopyWriter :=
  match l.estdStreams.lookup streamID with
  | some _ => { l with estdStreams := Map.erase streamID l.estdStreams,
                       activeStreams := l.activeStreams.erase streamID }
  | none => l

/-- `l.cleanupStreamHandler(c)`. -/
def cleanupStreamHandler (l : loopyWriter) (streamID : Nat) (rst : Bool) :
    List Frame × loopyWriter :=
  let l := l.deleteStream streamID
  let fs := if rst then [Frame.rstStream streamID] else []
  if l.side = .clientSide ∧ l.draining ∧ l.estdStreams = [] then
    (fs, { l with err := some ErrConnClosing })
  else (fs, l)

/-- `l.incomingWindowUpdateHandler(w)`. -/
def incomingWindowUpdateHandler (l : loopyWriter) (streamID : Nat) (increment : UInt32) :
    List Frame × loopyWriter :=
  if streamID = 0 then ([], { l with sendQuota := l.sendQuota + increment })
  else
    match l.estdStreams.lookup streamID with
    | some str =>
      let str := { str with bytesOutStanding := str.bytesOutStanding - increment.toNat }
      if (l.oiws.toNat : Int) - str.bytesOutStanding > 0 ∧
          str.state = .waitingOnStreamQuota then
        ([], (l.setStream streamID { str with state := .active }).enqueue streamID)
      else ([], l.setStream streamID str)
    | none => ([], l)

/-- The streams waiting on quota made active when the initial window grows, visited in
`order`. -/
def wakeWaiting (l : loopyWriter) (order : List Nat) : loopyWriter :=
  order.foldl (fun l id =>
    match l.estdStreams.lookup id with
    | some stream =>
      if stream.state = .waitingOnStreamQuota then
        (l.setStream id { stream with state := .active }).enqueue id
      else l
    | none => l) l

/-- `l.applySettings(ss)`. -/
def applySettings (l : loopyWriter) : List Setting → loopyWriter
  | [] => l
  | .initialWindowSize val order :: ss =>
    let o := l.oiws
    let l := { l with oiws := val }
    -- if the new limit is greater, make all depleted streams active
    let l := if o < l.oiws then l.wakeWaiting order else l
    applySettings l ss
  -- `updateHeaderTblSize(l.hEnc, s.Val)`
  | .headerTableSize _ :: ss => applySettings l ss
  | .other :: ss => applySettings l ss

/-- `l.incomingSettingsHandler(s)`. -/
def incomingSettingsHandler (l : loopyWriter) (ss : List Setting) : List Frame × loopyWriter :=
  ([.settingsAck], l.applySettings ss)

/-- `l.registerStreamHandler(h)`. -/
def registerStreamHandler (l : loopyWriter) (streamID : Nat) : List Frame × loopyWriter :=
  ([], { l with estdStreams := Map.insert streamID ⟨streamID, .empty, [], 0⟩ l.estdStreams })

/-- `l.originateStream(str)` for the stream a client's `headerFrame` creates; its item list
held only the header frame, which `originateStream` dequeues. -/
def originateStream (l : loopyWriter) (streamID : Nat) (endStream : Bool)
    (initStream : initResult) : List Frame × loopyWriter :=
  match initStream with
  | .ok =>
    (writeHeader streamID endStream,
      { l with estdStreams := Map.insert streamID ⟨streamID, .empty, [], 0⟩ l.estdStreams })
  | .errConnClosing => ([], { l with err := some ErrConnClosing })
  -- other errors (`errStreamDrain`) need not close the transport
  | .errStreamDrain => ([], l)

/-- `l.headerHandler(h)`. -/
def headerHandler (l : loopyWriter) (streamID : Nat) (endStream : Bool)
    (initStream : initResult) (rst : Bool) : List Frame × loopyWriter :=
  match l.side with
  | .serverSide =>
    match l.estdStreams.lookup streamID with
    | none => ([], l)
    | some str =>
      -- case 1.A: the server is responding with headers
      if !endStream then (writeHeader streamID endStream, l)
      -- case 1.B: the server wants to close the stream; the trailers wait behind its data
      else if str.state ≠ .empty then
        ([], l.setStream streamID { str with itl := str.itl ++ [.headerFrame streamID endStream rst] })
      else
        let r := l.cleanupStreamHandler streamID rst
        (writeHeader streamID endStream ++ r.1, r.2)
  -- case 2: the client wants to originate a stream
  | .clientSide => l.originateStream streamID endStream initStream

/-- `l.preprocessData(df)`. -/
def preprocessData (l : loopyWriter) (streamID : Nat) (endStream : Bool) (h d : Bytes) :
    List Frame × loopyWriter :=
  match l.estdStreams.lookup streamID with
  | none => ([], l)
  | some str =>
    let str := { str with itl := str.itl ++ [.dataFrame streamID endStream h d] }
    if str.state = .empty then
      ([], (l.setStream streamID { str with state := .active }).enqueue streamID)
    else ([], l.setStream streamID str)

/-- `l.earlyAbortStreamHandler(eas)`. -/
def earlyAbortStreamHandler (l : loopyWriter) (streamID : Nat) : List Frame × loopyWriter :=
  match l.side with
  | .clientSide => ([], { l with err := some "earlyAbortStream not handled on client" })
  | .serverSide => (writeHeader streamID true, l)

/-- `l.incomingGoAwayHandler(g)`. -/
def incomingGoAwayHandler (l : loopyWriter) : List Frame × loopyWriter :=
  match l.side with
  | .clientSide =>
    let l := { l with draining := true }
    if l.estdStreams = [] then ([], { l with err := some ErrConnClosing }) else ([], l)
  | .serverSide => ([], l)

/-- `l.goAwayHandler(g)`: only a server has an `ssGoAwayHandler`. -/
def goAwayHandler (l : loopyWriter) (draining : Bool) : List Frame × loopyWriter :=
  match l.side with
  | .serverSide => ([], { l with draining })
  | .clientSide => ([], l)

/-- `l.handle(i)`. -/
def handle (l : loopyWriter) : controlItem → List Frame × loopyWriter
  | .incomingWindowUpdate streamID increment => l.incomingWindowUpdateHandler streamID increment
  | .outgoingWindowUpdate streamID increment => ([.windowUpdate streamID increment], l)
  | .incomingSettings ss => l.incomingSettingsHandler ss
  | .outgoingSettings => ([.settings], l)
  | .headerFrame streamID endStream initStream rst =>
    l.headerHandler streamID endStream initStream rst
  | .registerStream streamID => l.registerStreamHandler streamID
  | .cleanupStream streamID rst => l.cleanupStreamHandler streamID rst
  | .earlyAbortStream streamID => l.earlyAbortStreamHandler streamID
  | .incomingGoAway => l.incomingGoAwayHandler
  | .dataFrame streamID endStream h d => l.preprocessData streamID endStream h d
  | .ping ack => ([.ping ack], l)
  | .goAway draining => l.goAwayHandler draining
  -- `o.resp <- l.sendQuota`
  | .outFlowControlSizeRequest => ([], l)

/-- The trailers at the head of a stream's items: `writeHeader` and then
`cleanupStreamHandler(trailer.cleanup)`. -/
def writeTrailer (l : loopyWriter) (streamID : Nat) (endStream rst : Bool) :
    List Frame × loopyWriter :=
  let r := l.cleanupStreamHandler streamID rst
  (writeHeader streamID endStream ++ r.1, r.2)

/-- What `processData` does with a stream after writing from it: the stream with items `itl`
is empty, closed by its trailers, parked for quota, or put back on `activeStreams`. -/
def afterWrite (l : loopyWriter) (id : Nat) (str : outStream) (fs : List Frame) :
    Bool × List Frame × loopyWriter :=
  match str.itl with
  | [] => (false, fs, l.setStream id { str with state := .empty })
  | .headerFrame tID tEnd rst :: _ =>
    let r := (l.setStream id str).writeTrailer tID tEnd rst
    (false, fs ++ r.1, r.2)
  | .dataFrame .. :: _ =>
    -- ran out of stream quota
    if (l.oiws.toNat : Int) - str.bytesOutStanding ≤ 0 then
      (false, fs, l.setStream id { str with state := .waitingOnStreamQuota })
    else (false, fs, (l.setStream id str).enqueue id)

/-- `l.processData()`: whether there was nothing to do, the frames written, and loopy after. -/
def processData (l : loopyWriter) : Bool × List Frame × loopyWriter :=
  if l.sendQuota = 0 then (true, [], l)
  else
    match l.activeStreams with
    | [] => (true, [], l)
    | id :: rest =>
      let l := { l with activeStreams := rest }
      match l.estdStreams.lookup id with
      -- the stream dequeued is always established (`processData_lookup`)
      | none => (false, [], l)
      | some str =>
        match str.itl with
        | .dataFrame streamID endStream h d :: itl =>
          if h.length = 0 ∧ d.length = 0 then
            -- an empty data frame: the client's end of stream
            let fs := [Frame.data streamID endStream []]
            let str := { str with itl }
            match itl with
            | [] => (false, fs, l.setStream id { str with state := .empty })
            | .headerFrame tID tEnd rst :: _ =>
              -- an error of `cleanupStreamHandler` is dropped here: `return false, nil`
              let r := (l.setStream id str).writeTrailer tID tEnd rst
              (false, fs ++ r.1, { r.2 with err := l.err })
            | .dataFrame .. :: _ => (false, fs, (l.setStream id str).enqueue id)
          else
            let strQuota := (l.oiws.toNat : Int) - str.bytesOutStanding
            if strQuota ≤ 0 then
              (false, [], l.setStream id { str with state := .waitingOnStreamQuota })
            else
              let maxSize := min http2MaxFrameLen strQuota.toNat
              let maxSize := if maxSize > l.sendQuota.toNat then l.sendQuota.toNat else maxSize
              let hSize := min maxSize h.length
              let dSize := min (maxSize - hSize) d.length
              let buf := if hSize ≠ 0 then (if dSize = 0 then h else h.take hSize ++ d.take dSize)
                else d
              let size := hSize + dSize
              -- the last data message of the stream, all of it written in this iteration
              let endStream' := endStream && decide (h.length + d.length ≤ size)
              let fs := [Frame.data streamID endStream' (buf.take size)]
              let str := { str with bytesOutStanding := str.bytesOutStanding + size }
              let l := { l with sendQuota := l.sendQuota - UInt32.ofNat size }
              let h := h.drop hSize
              let d := d.drop dSize
              let itl := if h.length = 0 ∧ d.length = 0 then itl
                else .dataFrame streamID endStream h d :: itl
              l.afterWrite id { str with itl } fs
        | _ => (false, [], { l with err := some errNotDataFrame })

end loopyWriter

/-- What loopy does next. -/
inductive LoopyEvent
  | handle (i : controlItem)
  | processData
  deriving DecidableEq, Repr

/-- One turn of `loopy.run`: the frames written and loopy after.  Once a handler has failed,
`run` has returned and nothing more happens. -/
def loopyWriter.step (l : loopyWriter) (e : LoopyEvent) : List Frame × loopyWriter :=
  if l.err.isSome then ([], l)
  else
    match e with
    | .handle i => l.handle i
    | .processData => l.processData.2

/-- A setting of the initial window visits every established stream. -/
def Setting.Covers (l : loopyWriter) : Setting → Prop
  | .initialWindowSize _ order => ∀ k ∈ l.estdStreams.map Prod.fst, k ∈ order
  | _ => True

instance Setting.decCovers (l : loopyWriter) : (s : Setting) → Decidable (s.Covers l)
  | .initialWindowSize _ _ => inferInstanceAs (Decidable (∀ _ ∈ _, _))
  | .headerTableSize _ => inferInstanceAs (Decidable True)
  | .other => inferInstanceAs (Decidable True)

/-- What the transport can hand loopy next: a server registers, and a client originates, a
stream under an id that is not established, and an initial window setting visits every
established stream (`range l.estdStreams`). -/
def loopyWriter.Allowed (l : loopyWriter) : LoopyEvent → Prop
  | .handle (.headerFrame streamID _ _ _) =>
    l.side = .clientSide → streamID ∉ l.estdStreams.map Prod.fst
  | .handle (.registerStream streamID) => streamID ∉ l.estdStreams.map Prod.fst
  | .handle (.incomingSettings ss) => ∀ s ∈ ss, s.Covers l
  | _ => True

instance loopyWriter.decAllowed (l : loopyWriter) : (e : LoopyEvent) → Decidable (l.Allowed e)
  | .handle (.headerFrame _ _ _ _) => inferInstanceAs (Decidable (_ → _))
  | .handle (.registerStream _) => inferInstanceAs (Decidable (¬ _))
  | .handle (.incomingSettings _) => inferInstanceAs (Decidable (∀ _ ∈ _, _))
  | .handle (.incomingWindowUpdate _ _) => inferInstanceAs (Decidable True)
  | .handle (.outgoingWindowUpdate _ _) => inferInstanceAs (Decidable True)
  | .handle .outgoingSettings => inferInstanceAs (Decidable True)
  | .handle (.cleanupStream _ _) => inferInstanceAs (Decidable True)
  | .handle (.earlyAbortStream _) => inferInstanceAs (Decidable True)
  | .handle .incomingGoAway => inferInstanceAs (Decidable True)
  | .handle (.dataFrame _ _ _ _) => inferInstanceAs (Decidable True)
  | .handle (.ping _) => inferInstanceAs (Decidable True)
  | .handle (.goAway _) => inferInstanceAs (Decidable True)
  | .handle .outFlowControlSizeRequest => inferInstanceAs (Decidable True)
  | .processData => inferInstanceAs (Decidable True)

end Transport
end GrpcGo
