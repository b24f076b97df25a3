import GrpcGo.Lib.GoMap
import GrpcGo.Lib.Machine

/-!
# ADS requests and their ACKs (`xds/internal/xdsclient/transport_helper.go`)

`TransportHelper` runs three loops.  `run` creates ADS streams one after the other, hands each
to the sender through `streamCh` (a channel of capacity one, emptied before each put) and runs
`recv` on it until it breaks.  `recv` turns each response into an `ackAction` tagged with its
stream, an ACK carrying the response's version or a NACK carrying `""` and the error, and puts it
on `sendCh`, where `AddWatch` and `RemoveWatch` put their `watchAction`s too.  `send` takes a new
stream from `streamCh` (`sendExisting`: the version and nonce maps are reset and every watched
type is requested again) or the next action from `sendCh` (`processWatchInfo`,
`processAckInfo`), and sends the request on its current stream, which it drops when a send
fails.

The model is the machine of these loops' shared state, whose events are the steps each loop may
take next; the scheduler's choice between `streamCh` and `sendCh` is the order of the events.
A `grpc.ClientStream` is the number of the stream `run` created; what `HandleResponse` makes of
a response, and whether a send succeeds, are the environment's.  The outputs are the requests
`SendRequest` is called with.  `mapToSlice`'s order, which Go's map iteration leaves open, is
the order of the map's entries.
-/

namespace GrpcGo
namespace XdsClient

open GoStd

/-- `ResourceType`. -/
inductive ResourceType
  | UnknownResource
  | ListenerResource
  | HTTPConnManagerResource
  | RouteConfigResource
  | ClusterResource
  | EndpointsResource
  deriving DecidableEq, Repr

/-- `watchAction`. -/
structure watchAction where
  rType : ResourceType
  remove : Bool
  resource : String
  deriving DecidableEq, Repr

/-- `ackAction`: a NACK when `version` is `""`. -/
structure ackAction where
  rType : ResourceType
  version : String
  nonce : String
  errMsg : String
  stream : Nat
  deriving DecidableEq, Repr

/-- What `sendCh` carries. -/
inductive action
  | watch (w : watchAction)
  | ack (a : ackAction)
  deriving DecidableEq, Repr

/-- A call of `SendRequest`: the stream and the request's fields. -/
structure request where
  stream : Nat
  resourceNames : List String
  rType : ResourceType
  version : String
  nonce : String
  errMsg : String
  deriving DecidableEq, Repr

/-- What `HandleResponse` makes of a response: a type it does not support
(`ErrResourceTypeUnsupported`), another error with the type, nonce and error text, or a valid
response with its type, `version_info` and nonce. -/
inductive handledResponse
  | unsupported
  | invalid (rType : ResourceType) (nonce errMsg : String)
  | valid (rType : ResourceType) (version nonce : String)
  deriving DecidableEq, Repr

/-- The state the loops of `TransportHelper` share: its maps, the two channels, the sender's
current stream (`stream` in `send`), the stream `recv` reads, and the number the next stream
`run` creates will have. -/
structure TransportHelper where
  watchMap : List (ResourceType × List (String × Bool))
  versionMap : List (ResourceType × String)
  nonceMap : List (ResourceType × String)
  sendCh : List action
  streamCh : Option Nat
  stream : Option Nat
  recvStream : Option Nat
  nextStream : Nat
  deriving DecidableEq, Repr

/-- `NewTransportHelper`. -/
def NewTransportHelper : TransportHelper :=
  ⟨[], [], [], [], none, none, none, 0⟩

/-- `mapToSlice`. -/
def mapToSlice (m : List (String × Bool)) : List String :=
  m.map Prod.fst

/-- The ack action `recv` puts on `sendCh` for a response on `stream`, if any. -/
def ackFor (stream : Nat) : handledResponse → Option ackAction
  | .unsupported => none
  | .invalid rType nonce errMsg => some ⟨rType, "", nonce, errMsg, stream⟩
  | .valid rType version nonce => some ⟨rType, version, nonce, "", stream⟩

namespace TransportHelper

/-- `processWatchInfo`: the watch map after the action, and the request's resource names, type,
version and nonce. -/
def processWatchInfo (t : TransportHelper) (w : watchAction) :
    (List String × ResourceType × String × String) × TransportHelper :=
  let current := (t.watchMap.lookup w.rType).getD []
  let current := if w.remove then Map.erase w.resource current else Map.insert w.resource true current
  -- the type's entry goes when a removal empties it
  let watchMap :=
    if w.remove && current.isEmpty then Map.erase w.rType t.watchMap
    else Map.insert w.rType current t.watchMap
  ((mapToSlice current, w.rType, (t.versionMap.lookup w.rType).getD "",
      (t.nonceMap.lookup w.rType).getD ""), { t with watchMap := watchMap })

/-- `processAckInfo` on the sender's current stream `stream`: the request's resource names,
type, version and nonce, and whether to send it. -/
def processAckInfo (t : TransportHelper) (ack : ackAction) (stream : Option Nat) :
    (List String × ResourceType × String × String × Bool) × TransportHelper :=
  -- an ack of an earlier stream changes nothing
  if some ack.stream ≠ stream then (([], .UnknownResource, "", "", false), t)
  else
    let nonce := ack.nonce
    let t := { t with nonceMap := Map.insert ack.rType nonce t.nonceMap }
    match t.watchMap.lookup ack.rType with
    | none => (([], .UnknownResource, "", "", false), t)
    | some s =>
      if s.isEmpty then (([], .UnknownResource, "", "", false), t)
      -- a NACK carries the version acked before
      else if ack.version = "" then
        ((mapToSlice s, ack.rType, (t.versionMap.lookup ack.rType).getD "", nonce, true), t)
      else
        ((mapToSlice s, ack.rType, ack.version, nonce, true),
          { t with versionMap := Map.insert ack.rType ack.version t.versionMap })

/-- `sendExisting` on `stream`: the maps are reset and each watched type requested, until the
send numbered `failAt`, if any, fails.  The requests tried, and whether all went out. -/
def sendExisting (t : TransportHelper) (stream : Nat) (failAt : Option Nat) :
    List request × Bool × TransportHelper :=
  let t := { t with versionMap := [], nonceMap := [] }
  let reqs := t.watchMap.map fun e => (⟨stream, mapToSlice e.2, e.1, "", "", ""⟩ : request)
  match failAt with
  | some k => if k < reqs.length then (reqs.take (k + 1), false, t) else (reqs, true, t)
  | none => (reqs, true, t)

/-- The sender sends a request on its current stream, if it has one, and drops the stream when
the send fails. -/
def sendRequest (t : TransportHelper) (target : List String) (rType : ResourceType)
    (version nonce errMsg : String) (sendOk : Bool) : List request × TransportHelper :=
  match t.stream with
  -- no stream yet: the request is skipped, and the next stream's `sendExisting` covers it
  | none => ([], t)
  | some s =>
    ([⟨s, target, rType, version, nonce, errMsg⟩],
      if sendOk then t else { t with stream := none })

end TransportHelper

/-- The steps the loops of `TransportHelper` may take next. -/
inductive helperEvent
  /-- `AddWatch` or `RemoveWatch`. -/
  | watch (w : watchAction)
  /-- `run` creates a stream; `recv` reads it from now on. -/
  | newStream
  /-- `recv` gets a response on `stream`, which `HandleResponse` handles as given. -/
  | response (stream : Nat) (h : handledResponse)
  /-- `send` takes the stream from `streamCh`; the send numbered `failAt`, if any, fails. -/
  | takeStream (failAt : Option Nat)
  /-- `send` takes the next action from `sendCh`; `sendOk` says whether its send succeeds. -/
  | takeAction (sendOk : Bool)
  deriving DecidableEq, Repr

namespace TransportHelper

/-- One step of a loop. -/
def step (t : TransportHelper) : helperEvent → List request × TransportHelper
  | .watch w => ([], { t with sendCh := t.sendCh ++ [.watch w] })
  | .newStream =>
    ([], { t with streamCh := some t.nextStream, recvStream := some t.nextStream,
                  nextStream := t.nextStream + 1 })
  | .response stream h =>
    match ackFor stream h with
    | none => ([], t)
    | some ack => ([], { t with sendCh := t.sendCh ++ [.ack ack] })
  | .takeStream failAt =>
    match t.streamCh with
    | none => ([], t)
    | some s =>
      let sent := { t with streamCh := none }.sendExisting s failAt
      -- a failed send clears the current stream
      (sent.1, { sent.2.2 with stream := if sent.2.1 then some s else none })
  | .takeAction sendOk =>
    match t.sendCh with
    | [] => ([], t)
    | .watch w :: rest =>
      let r := { t with sendCh := rest }.processWatchInfo w
      r.2.sendRequest r.1.1 r.1.2.1 r.1.2.2.1 r.1.2.2.2 "" sendOk
    | .ack ack :: rest =>
      let r := { t with sendCh := rest }.processAckInfo ack t.stream
      if r.1.2.2.2.2 then
        r.2.sendRequest r.1.1 r.1.2.1 r.1.2.2.1 r.1.2.2.2.1 ack.errMsg sendOk
      else ([], r.2)

/-- The steps the loops can take: `recv` reads only its own stream, and `send` takes only from
a channel that holds something. -/
def Allowed (t : TransportHelper) : helperEvent → Prop
  | .response stream _ => t.recvStream = some stream
  | .takeStream _ => t.streamCh.isSome
  | .takeAction _ => t.sendCh ≠ []
  | _ => True

instance (t : TransportHelper) : (e : helperEvent) → Decidable (t.Allowed e)
  | .response stream _ => inferInstanceAs (Decidable (t.recvStream = some stream))
  | .takeStream _ => inferInstanceAs (Decidable (t.streamCh.isSome = true))
  | .takeAction _ => inferInstanceAs (Decidable (t.sendCh ≠ []))
  | .watch _ => isTrue trivial
  | .newStream => isTrue trivial

end TransportHelper

end XdsClient
end GrpcGo
