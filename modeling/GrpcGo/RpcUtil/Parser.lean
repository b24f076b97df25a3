import GrpcGo.Transport.Stream
import GrpcGo.Lib.GoBinary
import GrpcGo.Status

/-!
# Length-prefixed messages (`rpc_util.go`)

A gRPC message on a stream is a five-byte header, the payload format (compressed or not) and the
payload length as a big-endian `uint32`, followed by the payload.  `msgHeader` builds the header
for the payload the sender chose, and `parser.recvMsg` reads one message back: the header, then,
unless the length is zero, the two size checks against `maxInt` and the receiver's limit, then the
payload.  Go's `int` is 64 bits wide here, so the `maxInt` check never refuses a `uint32` length.
-/

namespace GrpcGo

open GoStd GoStd.Binary

/-- `payloadFormat`. -/
abbrev payloadFormat := UInt8

/-- `compressionNone`. -/
def compressionNone : payloadFormat := 0
/-- `compressionMade`. -/
def compressionMade : payloadFormat := 1

/-- `payloadLen`, the size of the format byte. -/
def payloadLen : Nat := 1
/-- `sizeLen`, the size of the length field. -/
def sizeLen : Nat := 4
/-- `headerLen`. -/
def headerLen : Nat := payloadLen + sizeLen

/-- `msgHeader(data, compData)`, where `compData` is `none` for Go's `nil`: the header and the
payload, which is `compData` when there is one and `data` otherwise. -/
def msgHeader (data : Bytes) (compData : Option Bytes) : Bytes × Bytes :=
  let (flag, data) : payloadFormat × Bytes :=
    match compData with
    | some compData => (compressionMade, compData)
    | none => (compressionNone, data)
  (flag :: BigEndian.PutUint32 (UInt32.ofNat data.length), data)

/-- `maxInt`, for a 64-bit `int`. -/
def maxInt : Int := 2 ^ 63 - 1

/-- `parser`, reading from a stream.  Its `header` array is scratch space for one call. -/
structure parser where
  r : Transport.Stream

/-- `p.recvMsg(maxReceiveMessageSize)`: the payload format and the message, or the error. -/
def parser.recvMsg (p : parser) (maxReceiveMessageSize : Int) :
    Except GoError (payloadFormat × Bytes) × parser :=
  match p.r.Read headerLen with
  | ((_, some err), r) => (.error (.text err), ⟨r⟩)
  | ((header, none), r) =>
    let pf : payloadFormat := header.headD 0
    let length := BigEndian.Uint32 (header.drop payloadLen)
    if length = 0 then (.ok (pf, []), ⟨r⟩)
    else if (length.toNat : Int) > maxInt then
      (.error (.status ⟨.resourceExhausted,
        "grpc: received message larger than max length allowed on current machine (" ++
          toString length ++ " vs. " ++ toString maxInt ++ ")"⟩), ⟨r⟩)
    else if (length.toNat : Int) > maxReceiveMessageSize then
      (.error (.status ⟨.resourceExhausted, "grpc: received message larger than max (" ++
        toString length ++ " vs. " ++ toString maxReceiveMessageSize ++ ")"⟩), ⟨r⟩)
    else
      match r.Read length.toNat with
      | ((_, some err), r) =>
        (.error (.text (if err = Io.EOF then Io.ErrUnexpectedEOF else err)), ⟨r⟩)
      | ((msg, none), r) => (.ok (pf, msg), ⟨r⟩)

end GrpcGo
