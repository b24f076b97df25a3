import GrpcGo.RpcUtil.Framing
import GrpcGo.Lib.GoInt64

/-!
# Receiving a message, decompressed (`rpc_util.go`)

`recvAndDecompress` reads one message with `parser.recvMsg`, checks its payload format against
the stream's `grpc-encoding` (`checkRecvPayload`), decompresses a compressed payload (with the
legacy `Decompressor` when one is set, and otherwise with the `encoding.Compressor`, through
`decompress`) and refuses a message whose size is over `maxReceiveMessageSize` with
`ResourceExhausted`.  `decompress` does not read what it would refuse: it asks the compressor for
the decompressed size when the compressor can tell, and reads through an `io.LimitReader` of
`int64(maxReceiveMessageSize)+1` bytes, one byte over the limit standing for any message over it.

* `recvAndDecompress_le`: every message returned is within the limit, whatever the frame, the
  decompressors and the limit;
* `recvAndDecompress_whole`: a frame that `recvMsg` accepts and whose payload format the stream's
  encoding allows comes back whole when the message it carries (`Carries`) is within the limit,
  and is refused with `ResourceExhausted` when it is not, for every limit below
  `math.MaxInt64`.

At `math.MaxInt64` itself the limit of the `io.LimitReader` wraps around to `math.MinInt64`,
nothing is read, and a compressed message comes back empty (`recvAndDecompress_maxInt64`).  A
compressed frame is also refused when its compressed payload is over the limit, by `recvMsg`,
before anything is decompressed (`recvMsg_too_large`).
-/

namespace GrpcGo

open GoStd

/-- `encoding.Identity`. -/
def Identity : String := "identity"

/-- `checkRecvPayload(pf, recvCompress, haveCompressor)`, `none` for Go's `nil`. -/
def checkRecvPayload (pf : payloadFormat) (recvCompress : String) (haveCompressor : Bool) :
    Option Status :=
  if pf = compressionNone then none
  else if pf = compressionMade then
    if recvCompress = "" ∨ recvCompress = Identity then
      some ⟨.internal, "grpc: compressed flag set with identity or empty encoding"⟩
    else if !haveCompressor then
      some ⟨.unimplemented,
        "grpc: Decompressor is not installed for grpc-encoding " ++ Strconv.quote recvCompress⟩
    else none
  else some ⟨.internal, "grpc: received unexpected payload format " ++ toString pf⟩

/-- An `encoding.Compressor` as `decompress` calls it.  `Decompress` gives the reader of the
decompressed bytes, as the bytes it yields and the error it then fails with (`none` for
`io.EOF`), or fails itself; `DecompressedSize` is there when the compressor implements it. -/
structure Compressor where
  Decompress : Bytes → Except GoError (Bytes × Option GoError)
  DecompressedSize : Option (Bytes → Int)

/-- The legacy `Decompressor`, whose `Do` reads all of a compressed payload. -/
structure Decompressor where
  Do : Bytes → Except GoError Bytes

/-- The read of `decompress` from `dcReader`, yielding `out` and then failing with `rerr`,
through `io.LimitReader(dcReader, int64(maxReceiveMessageSize)+1)` (with `buf.ReadFrom` or
`ioutil.ReadAll`, which read the same): the bytes read and their number, or the error. -/
def readLimited (out : Bytes) (rerr : Option GoError) (maxReceiveMessageSize : Int) :
    Except GoError (Bytes × Int) :=
  -- `int64(maxReceiveMessageSize)+1`, which wraps around at `math.MaxInt64`
  match Io.readAllLimit out rerr (wrap64 (maxReceiveMessageSize + 1)) with
  | (buf, none) => .ok (buf, buf.length)
  | (_, some err) => .error err

/-- `decompress(compressor, d, maxReceiveMessageSize)`: the data and its size, or the error. -/
def decompress (compressor : Compressor) (d : Bytes) (maxReceiveMessageSize : Int) :
    Except GoError (Bytes × Int) :=
  match compressor.Decompress d with
  | .error err => .error err
  | .ok (out, rerr) =>
    match compressor.DecompressedSize with
    | some sizer =>
      let size := sizer d
      if size ≥ 0 then
        if size > maxReceiveMessageSize then .ok ([], size)
        else readLimited out rerr maxReceiveMessageSize
      else readLimited out rerr maxReceiveMessageSize
    | none => readLimited out rerr maxReceiveMessageSize

/-- The `if pf == compressionMade` block of `recvAndDecompress`: the message and its size, the
legacy decompressor taking precedence.  With neither, `checkRecvPayload` has already refused a
compressed payload, and the Go code would call a method of a nil interface. -/
def decompressPayload (pf : payloadFormat) (d : Bytes) (dc : Option Decompressor)
    (maxReceiveMessageSize : Int) (compressor : Option Compressor) :
    Except GoError (Bytes × Int) :=
  if pf = compressionMade then
    match dc, compressor with
    | some dc, _ => (dc.Do d).map fun d => (d, d.length)
    | none, some compressor => decompress compressor d maxReceiveMessageSize
    | none, none => .error (.text "runtime error: invalid memory address or nil pointer dereference")
  else .ok (d, d.length)

/-- `recvAndDecompress(p, s, dc, maxReceiveMessageSize, payInfo, compressor)`, with
`recvCompress` for `s.RecvCompress()`: the message or the error, what it writes to
`payInfo.wireLength` (`none` when it writes nothing), and the parser after. -/
def recvAndDecompress (p : parser) (recvCompress : String) (dc : Option Decompressor)
    (maxReceiveMessageSize : Int) (compressor : Option Compressor) :
    Except GoError Bytes × Option Nat × parser :=
  match p.recvMsg maxReceiveMessageSize with
  | (.error err, p) => (.error err, none, p)
  | (.ok (pf, d), p) =>
    match checkRecvPayload pf recvCompress (compressor.isSome || dc.isSome) with
    | some st => (.error (.status st), some d.length, p)
    | none =>
      match decompressPayload pf d dc maxReceiveMessageSize compressor with
      | .error err =>
        (.error (.status ⟨.internal,
          "grpc: failed to decompress the received message " ++ err.Error⟩), some d.length, p)
      | .ok (msg, size) =>
        if size > maxReceiveMessageSize then
          (.error (.status ⟨.resourceExhausted, "grpc: received message larger than max (" ++
            toString size ++ " vs. " ++ toString maxReceiveMessageSize ++ ")"⟩), some d.length, p)
        else (.ok msg, some d.length, p)

/-! ## Every message returned is within the limit -/

section Size

variable {maxReceiveMessageSize : Int} {buf : Bytes} {size : Int}

/-- The limited read returns the bytes read with their number. -/
theorem readLimited_size {out : Bytes} {rerr : Option GoError}
    (h : readLimited out rerr maxReceiveMessageSize = .ok (buf, size)) : size = buf.length := by
  unfold readLimited at h
  split at h
  · cases h
    rfl
  · cases h

/-- What `decompress` returns is its data with its size, or a size over the limit. -/
theorem decompress_size {compressor : Compressor} {d : Bytes}
    (h : decompress compressor d maxReceiveMessageSize = .ok (buf, size)) :
    size = buf.length ∨ maxReceiveMessageSize < size := by
  unfold decompress at h
  split at h
  · cases h
  · -- every path but the size estimate over the limit is the limited read
    split at h
    · dsimp only at h
      split_ifs at h with hpos hover
      · cases h
        exact .inr hover
      · exact .inl (readLimited_size h)
      · exact .inl (readLimited_size h)
    · exact .inl (readLimited_size h)

/-- So is what the decompression block returns. -/
theorem decompressPayload_size {pf : payloadFormat} {d : Bytes} {dc : Option Decompressor}
    {compressor : Option Compressor}
    (h : decompressPayload pf d dc maxReceiveMessageSize compressor = .ok (buf, size)) :
    size = buf.length ∨ maxReceiveMessageSize < size := by
  unfold decompressPayload at h
  split_ifs at h
  · rcases dc with _ | dc
    · rcases compressor with _ | compressor
      · cases h
      · exact decompress_size h
    · -- the legacy decompressor's output, with its length
      dsimp only at h
      cases hdo : dc.Do d with
      | error err =>
        rw [hdo] at h
        cases h
      | ok out =>
        rw [hdo] at h
        cases h
        exact .inl rfl
  · cases h
    exact .inl rfl

/-- **Every message `recvAndDecompress` returns is within the limit**, whatever the frame, the
decompressors and the limit. -/
theorem recvAndDecompress_le (p : parser) (recvCompress : String) (dc : Option Decompressor)
    (maxReceiveMessageSize : Int) (compressor : Option Compressor) {msg : Bytes}
    (h : (recvAndDecompress p recvCompress dc maxReceiveMessageSize compressor).1 = .ok msg) :
    (msg.length : Int) ≤ maxReceiveMessageSize := by
  unfold recvAndDecompress at h
  split at h
  · cases h
  · split at h
    · cases h
    · split at h
      · cases h
      · rename_i size hpayload
        split_ifs at h with hover
        cases h
        rcases decompressPayload_size hpayload with hsize | hsize <;> omega

end Size

/-! ## A message within the limit comes back whole -/

/-- `D` is the message a frame of format `pf` and payload `d` carries: `d` itself when it is not
compressed; when it is, the legacy decompressor's output if one is set, and otherwise the bytes
the compressor's reader yields before `io.EOF`, the compressor's `DecompressedSize`, when it has
one and it is not negative, being their number. -/
def Carries (pf : payloadFormat) (d : Bytes) (dc : Option Decompressor)
    (compressor : Option Compressor) (D : Bytes) : Prop :=
  if pf = compressionMade then
    match dc, compressor with
    | some dc, _ => dc.Do d = .ok D
    | none, some c =>
      c.Decompress d = .ok (D, none) ∧ ∀ sizer ∈ c.DecompressedSize, 0 ≤ sizer d → sizer d = D.length
    | none, none => False
  else D = d

/-- A read of the message `D` against the limit: the read succeeds, with a size within the limit
exactly when `D` is, and returns `D` then. -/
def ReadsWithin (maxReceiveMessageSize : Int) (D : Bytes) (r : Except GoError (Bytes × Int)) :
    Prop :=
  ∃ buf size, r = .ok (buf, size) ∧
    (size ≤ maxReceiveMessageSize ↔ (D.length : Int) ≤ maxReceiveMessageSize) ∧
    ((D.length : Int) ≤ maxReceiveMessageSize → buf = D)

section Whole

variable {maxReceiveMessageSize : Int}

/-- The message itself, with its length, is read within the limit. -/
theorem readsWithin_self (D : Bytes) :
    ReadsWithin maxReceiveMessageSize D (.ok (D, D.length)) :=
  ⟨D, D.length, rfl, Iff.rfl, fun _ => rfl⟩

/-- So is anything with a size over the limit, for a message over it. -/
theorem readsWithin_of_gt {D buf : Bytes} {size : Int} (hD : maxReceiveMessageSize < D.length)
    (hsize : maxReceiveMessageSize < size) : ReadsWithin maxReceiveMessageSize D (.ok (buf, size)) :=
  ⟨buf, size, rfl, by omega, fun h => absurd h (by omega)⟩

/-- **Below `math.MaxInt64`, the limited read reads a message against the limit**: all of it
when it is within the limit, and one byte over the limit (none, for a negative limit) when it
is not. -/
theorem readLimited_readsWithin (hmax : InInt64 maxReceiveMessageSize)
    (hlt : maxReceiveMessageSize < MaxInt64) (out : Bytes) :
    ReadsWithin maxReceiveMessageSize out (readLimited out none maxReceiveMessageSize) := by
  -- no wrap-around: the limit plus one is an `int64`
  have hwrap : wrap64 (maxReceiveMessageSize + 1) = maxReceiveMessageSize + 1 := by
    apply wrap64_of_inInt64
    unfold InInt64 MinInt64 MaxInt64 at *
    omega
  unfold readLimited
  rw [hwrap]
  by_cases hle : (out.length : Int) ≤ maxReceiveMessageSize
  · rw [Io.readAllLimit_of_lt none (by omega)]
    exact readsWithin_self out
  · rw [Io.readAllLimit_of_le none (by omega)]
    refine readsWithin_of_gt (by omega) ?_
    rw [List.length_take]
    omega

/-- `decompress` reads the bytes of a compressor that decompresses to them against the limit,
whether it can tell their number or not. -/
theorem decompress_readsWithin {c : Compressor} {d D : Bytes}
    (hD : c.Decompress d = .ok (D, none))
    (hsizer : ∀ sizer ∈ c.DecompressedSize, 0 ≤ sizer d → sizer d = D.length)
    (hmax : InInt64 maxReceiveMessageSize) (hlt : maxReceiveMessageSize < MaxInt64) :
    ReadsWithin maxReceiveMessageSize D (decompress c d maxReceiveMessageSize) := by
  unfold decompress
  rw [hD]
  dsimp only
  cases hs : c.DecompressedSize with
  | none => exact readLimited_readsWithin hmax hlt D
  | some sizer =>
    dsimp only
    by_cases hpos : sizer d ≥ 0
    · -- the estimate is the number of bytes
      have hsize := hsizer sizer hs hpos
      rw [if_pos hpos]
      by_cases hover : sizer d > maxReceiveMessageSize
      · rw [if_pos hover]
        exact readsWithin_of_gt (hsize ▸ hover) hover
      · rw [if_neg hover]
        exact readLimited_readsWithin hmax hlt D
    · rw [if_neg hpos]
      exact readLimited_readsWithin hmax hlt D

/-- The decompression block reads the message a frame carries against the limit. -/
theorem decompressPayload_readsWithin {pf : payloadFormat} {d D : Bytes}
    {dc : Option Decompressor} {compressor : Option Compressor}
    (hD : Carries pf d dc compressor D) (hmax : InInt64 maxReceiveMessageSize)
    (hlt : maxReceiveMessageSize < MaxInt64) :
    ReadsWithin maxReceiveMessageSize D (decompressPayload pf d dc maxReceiveMessageSize compressor) := by
  unfold Carries at hD
  unfold decompressPayload
  split_ifs at hD ⊢
  · rcases dc with _ | dc
    · rcases compressor with _ | c
      · exact hD.elim
      · exact decompress_readsWithin hD.1 hD.2 hmax hlt
    · dsimp only at hD ⊢
      rw [hD]
      exact readsWithin_self D
  · rw [hD]
    exact readsWithin_self d

/-- **A message within the limit comes back whole; one over it is refused with
`ResourceExhausted`.**  For a frame that `recvMsg` accepts, on a stream that has not failed, whose
payload format the stream's encoding allows, and for every limit below `math.MaxInt64`:
`recvAndDecompress` returns the message the frame carries when it is within the limit, and fails
with `ResourceExhausted` when it is not. -/
theorem recvAndDecompress_whole {p : parser} {m : Bytes × Option Bytes} {rest : Bytes}
    {recvCompress : String} {dc : Option Decompressor} {compressor : Option Compressor}
    {D : Bytes} (her : p.r.trReader.er = none)
    (hwire : p.r.trReader.reader.flatten = encodeMsg m ++ rest)
    (hsize : (msgPayload m).length < 2 ^ 32) (hacc : Accepted maxReceiveMessageSize m)
    (hcheck : checkRecvPayload (msgFormat m) recvCompress (compressor.isSome || dc.isSome) = none)
    (hD : Carries (msgFormat m) (msgPayload m) dc compressor D)
    (hmax : InInt64 maxReceiveMessageSize) (hlt : maxReceiveMessageSize < MaxInt64) :
    ((D.length : Int) ≤ maxReceiveMessageSize →
        (recvAndDecompress p recvCompress dc maxReceiveMessageSize compressor).1 = .ok D) ∧
      (maxReceiveMessageSize < D.length → ∃ msg,
        (recvAndDecompress p recvCompress dc maxReceiveMessageSize compressor).1 =
          .error (.status ⟨.resourceExhausted, msg⟩)) := by
  obtain ⟨p', hrecv, -, -⟩ := recvMsg_ok her hwire hsize hacc
  obtain ⟨buf, size, hpayload, hiff, hbuf⟩ := decompressPayload_readsWithin hD hmax hlt
  unfold recvAndDecompress
  rw [hrecv]
  dsimp only
  rw [hcheck]
  dsimp only
  rw [hpayload]
  dsimp only
  constructor
  · intro hle
    rw [if_neg (by omega), hbuf hle]
  · intro hgt
    rw [if_pos (by omega)]
    exact ⟨_, rfl⟩

end Whole

/-- **At `math.MaxInt64` a compressed message comes back empty.**  A frame of one byte,
compressed with an encoding whose compressor decompresses every payload to itself: the limit of
the `io.LimitReader` wraps around to `math.MinInt64`, nothing is read, and the message the frame
carries, of one byte, comes back as no bytes at all. -/
theorem recvAndDecompress_maxInt64 :
    Carries compressionMade [97] none (some ⟨fun x => .ok (x, none), none⟩) [97] ∧
      (recvAndDecompress ⟨⟨[encodeMsg ([97], some [97])], none⟩⟩ "gzip" none MaxInt64
        (some ⟨fun x => .ok (x, none), none⟩)).1 = .ok [] := by
  refine ⟨?_, ?_⟩
  · unfold Carries
    rw [if_pos rfl]
    exact ⟨rfl, nofun⟩
  · -- the frame is read whole, well within the limit
    obtain ⟨p', hrecv, -, -⟩ := @recvMsg_ok MaxInt64 ⟨⟨[encodeMsg ([97], some [97])], none⟩⟩
      ([97], some [97]) rfl [] rfl (by decide) (by decide)
    unfold recvAndDecompress
    rw [hrecv]
    rfl

end GrpcGo
