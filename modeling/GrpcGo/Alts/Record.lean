import GrpcGo.Lib.GoBinary
import GrpcGo.Lib.GoSlice
import GrpcGo.Lib.GoIo
import GrpcGo.Lib.GoMap

/-!
# The ALTS record layer (`credentials/alts/internal/conn`)

A `conn` wraps a `net.Conn`.  `Write` cuts its input into pieces of at most
`altsWriteBufferMaxSize` bytes of frames, each piece into payloads of at most
`payloadLengthLimit` bytes, and sends each piece as the frames

  length (4 bytes, little endian) ‖ message type 0x06 (4 bytes) ‖ sealed payload

built in `writeBuf`.  `Read` returns bytes left over from the last decrypted frame, and
otherwise parses the next frame out of `protected`, reading from the network into it and growing
it until a whole frame is there, checks the message type and decrypts the frame.  Its failures
are the errors it returns and the run-time panics of its slice expressions (`Failure`).

The record protocol (`ALTSRecordCrypto`) is a method table over the state `σ` of its counters:
the registered implementations are one such table over the states of all of them.  A protocol
whose tag leaves no payload room in an `altsRecordDefaultLength` frame cannot be built; both
registered protocols have a 16-byte tag.

Go's `conn` fields `payloadLengthLimit` and `overhead` are fixed by `NewConn` from the protocol
and are functions of it here.  The field `protected` is `protectedBuf` (`protected` is a Lean
keyword).
-/

namespace GrpcGo
namespace Alts

open GoStd GoStd.Binary

/-- `core.Side`. -/
inductive Side
  | ClientSide
  | ServerSide
  deriving DecidableEq, Repr

/-! ## Constants -/

/-- `MsgLenFieldSize`. -/
def MsgLenFieldSize : Nat := 4
/-- `msgTypeFieldSize`. -/
def msgTypeFieldSize : Nat := 4
/-- `altsRecordLengthLimit`, 1 MiB. -/
def altsRecordLengthLimit : UInt32 := 1024 * 1024
/-- `altsRecordDefaultLength`, 4 KiB. -/
def altsRecordDefaultLength : Nat := 4 * 1024
/-- `altsRecordMsgType`. -/
def altsRecordMsgType : UInt32 := 0x06
/-- `altsWriteBufferInitialSize`, 32 KiB. -/
def altsWriteBufferInitialSize : Nat := 32 * 1024
/-- `altsWriteBufferMaxSize`, 512 KiB. -/
def altsWriteBufferMaxSize : Nat := 512 * 1024

/-! ## The record protocol -/

/-- `ALTSRecordCrypto`.  `Encrypt s dst plaintext` returns `dst` followed by the sealed
plaintext; `Decrypt s dst ciphertext` returns `dst` followed by the opened plaintext.  A failed
call leaves the counters as they were. -/
structure ALTSRecordCrypto (σ : Type) where
  Encrypt : σ → Bytes → Bytes → Except String (Bytes × σ)
  EncryptionOverhead : Nat
  Decrypt : σ → Bytes → Bytes → Except String (Bytes × σ)
  overhead_lt :
    MsgLenFieldSize + msgTypeFieldSize + EncryptionOverhead < altsRecordDefaultLength

/-- `ALTSRecordFunc`: a protocol's constructor from the side and the key. -/
abbrev ALTSRecordFunc (σ : Type) := Side → Bytes → Except String σ

variable {σ : Type}

/-- `RegisterProtocol(protocol, f)` on the registry `protocols`. -/
def RegisterProtocol (protocols : List (String × ALTSRecordFunc σ)) (protocol : String)
    (f : ALTSRecordFunc σ) : Except String (List (String × ALTSRecordFunc σ)) :=
  if (protocols.lookup protocol).isSome then
    .error ("protocol " ++ protocol ++ " is already registered")
  else .ok (Map.insert protocol f protocols)

/-- `overhead`: the length field, the type field and the tag. -/
def overhead (c : ALTSRecordCrypto σ) : Nat :=
  MsgLenFieldSize + msgTypeFieldSize + c.EncryptionOverhead

/-- `payloadLengthLimit`: the payload that fits in a frame of `altsRecordDefaultLength`. -/
def payloadLengthLimit (c : ALTSRecordCrypto σ) : Nat :=
  altsRecordDefaultLength - overhead c

theorem payloadLengthLimit_pos (c : ALTSRecordCrypto σ) : 0 < payloadLengthLimit c := by
  have := c.overhead_lt
  unfold payloadLengthLimit overhead
  omega

theorem payloadLengthLimit_add_overhead (c : ALTSRecordCrypto σ) :
    payloadLengthLimit c + overhead c = altsRecordDefaultLength := by
  have := c.overhead_lt
  unfold payloadLengthLimit overhead
  omega

/-! ## The connection -/

/-- `conn`. -/
structure conn (σ : Type) where
  Conn : Io.Conn UInt8
  crypto : σ
  /-- Decrypted bytes not yet returned by `Read`. -/
  buf : Bytes
  /-- Bytes read from the network and not yet decrypted (Go's `protected`). -/
  protectedBuf : Slice UInt8
  writeBuf : Bytes
  /-- The part of `protected` from the next frame on. -/
  nextFrame : Bytes

/-- `NewConn(c, side, recordProtocol, key, protected)`; `protected` is `none` for Go's `nil`. -/
def NewConn (protocols : List (String × ALTSRecordFunc σ)) (c : Io.Conn UInt8) (side : Side)
    (recordProtocol : String) (key : Bytes) («protected» : Option Bytes) :
    Except String (conn σ) := do
  let some newCrypto := protocols.lookup recordProtocol
    | throw ("negotiated unknown next_protocol " ++ Strconv.quote recordProtocol)
  let crypto ← (newCrypto side key).mapError fun err =>
    "protocol " ++ Strconv.quote recordProtocol ++ ": " ++ err
  let protectedBuf : Slice UInt8 :=
    match «protected» with
    | none =>
      ⟨[], 2 * altsRecordDefaultLength - 1, Nat.zero_le _,
        List.replicate (2 * altsRecordDefaultLength - 1) 0, List.length_replicate ..⟩
    | some bytes =>
      (⟨List.replicate bytes.length 0, bytes.length, (List.length_replicate ..).le, [],
        by rw [List.length_replicate, Nat.sub_self]; rfl⟩ : Slice UInt8).copyFrom bytes
  pure
    { Conn := c, crypto, buf := [], protectedBuf,
      writeBuf := List.replicate altsWriteBufferInitialSize 0, nextFrame := protectedBuf.data }

/-! ## Framing -/

/-- `ParseFramedMsg(b, maxLen)`: a complete frame and the bytes after it, or no frame and all of
`b` when the frame is not complete yet. -/
def ParseFramedMsg (b : Bytes) (maxLen : UInt32) : Except String (Bytes × Bytes) :=
  if b.length < MsgLenFieldSize then .ok ([], b)
  else
    let length := LittleEndian.Uint32 (b.take MsgLenFieldSize)
    if length > maxLen then
      .error ("received the frame length " ++ toString length ++ " larger than the limit " ++
        toString maxLen)
    else if b.length < length.toNat + 4 then .ok ([], b)
    else
      -- `MsgLenFieldSize+length` is a `uint32` sum
      let frameLen := (UInt32.ofNat MsgLenFieldSize + length).toNat
      .ok (b.take frameLen, b.drop frameLen)

/-! ## Reading -/

/-- `n = copy(b, p.buf); p.buf = p.buf[n:]` for `len(b) = k`. -/
def copyOut (p : conn σ) (k : Nat) : Except Failure Bytes × conn σ :=
  (.ok (p.buf.take k), { p with buf := p.buf.drop k })

/-- `copy(p.protected, p.nextFrame); p.protected = p.protected[:len(p.nextFrame)];
p.nextFrame = p.protected`: the incomplete next frame moves to the front of `protected`. -/
def compact (p : conn σ) : conn σ :=
  let prot := (p.protectedBuf.copyFrom p.nextFrame).take p.nextFrame.length
  { p with protectedBuf := prot, nextFrame := prot.data }

/-- The growth step of the read loop: a full `protected` gets `altsRecordDefaultLength` more
capacity. -/
def growProtected (s : Slice UInt8) : Slice UInt8 :=
  if s.data.length = s.cap then s.grow altsRecordDefaultLength else s

/-- The size of the network read: the unused capacity, at most `altsRecordDefaultLength`. -/
def readSize (s : Slice UInt8) : Nat :=
  min s.cap (s.data.length + altsRecordDefaultLength) - s.data.length

theorem readSize_growProtected_pos (s : Slice UInt8) : 0 < readSize (growProtected s) := by
  have := Slice.length_lt_cap_of_grow s (n := altsRecordDefaultLength) (by decide)
  unfold readSize growProtected altsRecordDefaultLength at *
  omega

/-- The loop `for len(framedMsg) == 0` of `Read`: grow `protected` when it is full, read from the
network into its unused capacity and parse again.  It ends because each read into the nonempty
buffer takes something off the network. -/
def readFrame (p : conn σ) : Except String Bytes × conn σ :=
  let prot := growProtected p.protectedBuf
  match h : Io.readChunk (readSize prot) p.Conn.incoming with
  | .error err => (.error err, { p with protectedBuf := prot })
  | .ok (n, incoming) =>
    let prot := prot.extend n (by
      have := Io.length_le_of_readChunk h
      have := prot.len_le_cap
      unfold readSize at *
      omega)
    let p := { p with Conn := { p.Conn with incoming }, protectedBuf := prot }
    match ParseFramedMsg prot.data altsRecordLengthLimit with
    | .error err => (.error err, { p with nextFrame := [] })
    | .ok (framedMsg, nextFrame) =>
      if framedMsg.length = 0 then readFrame { p with nextFrame }
      else (.ok framedMsg, { p with nextFrame })
termination_by Io.remaining p.Conn.incoming
decreasing_by exact Io.remaining_lt_of_readChunk (readSize_growProtected_pos _) h

/-- The message type check and the decryption of a complete frame.  `after` is the rest of the
backing array behind the frame, up to its capacity: on a message shorter than the type field,
`msg[:msgTypeFieldSize]` reads on into it, and `msg[msgTypeFieldSize:]` panics. -/
def decryptFrame (c : ALTSRecordCrypto σ) (crypto : σ) (framedMsg after : Bytes) :
    Except Failure (Bytes × σ) := do
  let msg := framedMsg.drop MsgLenFieldSize
  let msgType := LittleEndian.Uint32 (← sliceTo msg after msgTypeFieldSize)
  if msgType &&& 0xff ≠ altsRecordMsgType then
    throw (.error ("received frame with incorrect message type " ++ toString msgType ++
      ", expected lower byte " ++ toString altsRecordMsgType))
  let ciphertext ← sliceFrom msg msgTypeFieldSize
  (c.Decrypt crypto [] ciphertext).mapError .error

/-- `p.Read(b)` with `len(b) = k`: the bytes copied into `b`.  The frame is a front of
`protected` or of `nextFrame`, which runs to the end of `protected`, so behind it lie the bytes
of `nextFrame` and the spare capacity of `protected`. -/
def Read (c : ALTSRecordCrypto σ) (p : conn σ) (k : Nat) : Except Failure Bytes × conn σ :=
  if p.buf.length = 0 then
    match ParseFramedMsg p.nextFrame altsRecordLengthLimit with
    | .error err => (.error (.error err), { p with nextFrame := [] })
    | .ok (framedMsg, nextFrame) =>
      let p := { p with nextFrame }
      let framed := if framedMsg.length = 0 then readFrame (compact p) else (.ok framedMsg, p)
      match framed with
      | (.error err, p) => (.error (.error err), p)
      | (.ok framedMsg, p) =>
        match decryptFrame c p.crypto framedMsg (p.nextFrame ++ p.protectedBuf.spare) with
        | .error err => (.error err, { p with buf := [] })
        | .ok (buf, crypto) => copyOut { p with buf, crypto } k
  else copyOut p k

/-! ## Writing -/

/-- The loop `for len(partialB) > 0` of `Write` over the payloads `bufs` of one piece, from
`writeBufIndex`: each frame gets its type field, then the sealed payload after it, then its
length field. -/
def writeFrames (c : ALTSRecordCrypto σ) (p : conn σ) (writeBufIndex : Nat) :
    List Bytes → Option String × conn σ × Nat
  | [] => (none, p, writeBufIndex)
  | buf :: bufs =>
    let writeBuf :=
      putAt p.writeBuf (writeBufIndex + MsgLenFieldSize) (LittleEndian.PutUint32 altsRecordMsgType)
    let dst := (writeBuf.drop (writeBufIndex + MsgLenFieldSize)).take msgTypeFieldSize
    match c.Encrypt p.crypto dst buf with
    | .error err => (some err, { p with writeBuf }, writeBufIndex)
    | .ok (msg, crypto) =>
      -- `Encrypt` seals in place, after the type field
      let writeBuf := putAt writeBuf (writeBufIndex + MsgLenFieldSize) msg
      let writeBuf := putAt writeBuf writeBufIndex (LittleEndian.PutUint32 (UInt32.ofNat msg.length))
      writeFrames c { p with writeBuf, crypto } (writeBufIndex + buf.length + overhead c) bufs

/-- The loop over the pieces of `Write`, from `partialBStart`; `n` is `len(b)`. -/
def writePartials (c : ALTSRecordCrypto σ) (n partialBSize : Nat) :
    Nat → List Bytes → conn σ → (Nat × Option String) × conn σ
  | _, [], p => ((n, none), p)
  | partialBStart, partialB :: partials, p =>
    match writeFrames c p 0 (chunks (payloadLengthLimit c) partialB) with
    | (some err, p, _) => ((n, some err), p)
    | (none, p, writeBufIndex) =>
      let ((nn, err), out) := p.Conn.out.write (p.writeBuf.take writeBufIndex)
      let p := { p with Conn := { p.Conn with out } }
      match err with
      | some err =>
        -- only the frames written whole count
        ((partialBStart + nn / altsRecordDefaultLength * payloadLengthLimit c, some err), p)
      | none => writePartials c n partialBSize (partialBStart + partialBSize) partials p

/-- `p.Write(b)`.  The frame count `int(math.Ceil(float64(len(b)) / float64(payloadLengthLimit)))`
is the integer ceiling, which the float computation gives for every slice length below 2^52. -/
def Write (c : ALTSRecordCrypto σ) (p : conn σ) (b : Bytes) : (Nat × Option String) × conn σ :=
  let n := b.length
  let numOfFrames := (b.length + payloadLengthLimit c - 1) / payloadLengthLimit c
  let size := b.length + numOfFrames * overhead c
  let (size, partialBSize) :=
    if size > altsWriteBufferMaxSize then
      (altsWriteBufferMaxSize,
        altsWriteBufferMaxSize / altsRecordDefaultLength * payloadLengthLimit c)
    else (size, b.length)
  let p := if p.writeBuf.length < size then { p with writeBuf := List.replicate size 0 } else p
  writePartials c n partialBSize 0 (chunks partialBSize b) p

end Alts
end GrpcGo
