import GrpcGo.Lib.GoMap
import GrpcGo.Lib.Machine
import GrpcGo.Status
import GrpcGo.Transport.Timeout

/-!
# The server's HEADERS frames (`internal/transport/http2_server.go`)

`operateHeaders` decides what a server does with the header block of a new stream.  It reads the
header fields, then runs its checks in order: a header list cut at the size limit, several
`:authority` or `host` values, a request that does not speak gRPC or has a malformed field, a
transport no longer reachable, no room under `maxStreams`, and only then the stream id, which
must be odd and above `maxStreamID`.  A request that passes records its id as `maxStreamID`, is
refused if its method is not `POST` or the tap handle rejects it, and is otherwise registered.

* `scanFields` is the loop over the header fields; `headerScan` is what it gathers.
* `operateHeaders` returns whether the frame is fatal to the connection, the control items it
  puts, and the transport after it.  A `MetaHeadersFrame` is reduced to what the function reads.
* `ServerEvent` is what happens to the transport next: a header block, a stream finishing, or
  the transport closing or draining.
* `ReachesIdCheck` says when a frame gets as far as the stream id check.  A frame stopped
  before it changes nothing (`operateHeaders_of_not_reaches`); one that reaches it is fatal
  exactly when its id is even or not above `maxStreamID` (`operateHeaders_of_bad_id`), and
  otherwise records its id (`operateHeaders_of_good_id`).  Along every run the streams
  registered have increasing ids, none above `maxStreamID`, which never falls
  (`registered_increasing`).  The frames stopped before the id check leave `maxStreamID`
  alone, so a later stream may have a lower id than one of them
  (`operateHeaders_accepts_lower_id`).

The encoding of binary headers (`encoding/base64`) and the tap handle are parameters
(`ServerEnv`).
-/

namespace GrpcGo
namespace Transport

open GoStd Strings

/-! ## Header fields -/

/-- `baseContentType`. -/
def baseContentType : String := "application/grpc"

/-- `grpcutil.ContentSubtype(contentType)`. -/
def ContentSubtype (contentType : String) : String × Bool :=
  if contentType = baseContentType then ("", true)
  else if !hasPrefix contentType baseContentType then ("", false)
  else
    match contentType.toList.drop baseContentType.length with
    | '+' :: rest => (String.ofList rest, true)
    | ';' :: rest => (String.ofList rest, true)
    | _ => ("", false)

/-- `isReservedHeader(hdr)`. -/
def isReservedHeader (hdr : String) : Bool :=
  hdr.toList.head? = some ':' ||
    [ "content-type", "user-agent", "grpc-message-type", "grpc-encoding", "grpc-message",
      "grpc-status", "grpc-timeout", "grpc-status-details-bin", "te"].contains hdr

/-- `isWhitelistedHeader(hdr)`. -/
def isWhitelistedHeader (hdr : String) : Bool :=
  hdr = ":authority" || hdr = "user-agent"

/-- `binHdrSuffix`. -/
def binHdrSuffix : String := "-bin"

/-- What the server takes from outside: `decodeBinHeader`, Go's base64 decoding of binary
header values, and `inTapHandle`, which may reject a method with an error. -/
structure ServerEnv where
  decodeBinHeader : String → Except String String
  inTapHandle : Option (String → Option GoError)

/-- `decodeMetadataHeader(k, v)`. -/
def decodeMetadataHeader (env : ServerEnv) (k v : String) : Except String String :=
  if hasSuffix k binHdrSuffix then env.decodeBinHeader v else .ok v

/-- What the loop over a header block's fields gathers. -/
structure headerScan where
  isGRPC : Bool
  mdata : List (String × List String)
  httpMethod : String
  headerError : Bool
  timeoutSet : Bool
  timeout : Int
  contentSubtype : String
  method : String
  recvCompress : String
  deriving DecidableEq, Repr

/-- Before the first field. -/
def headerScan.init : headerScan :=
  ⟨false, [], "", false, false, 0, "", "", ""⟩

/-- `mdata[k] = append(mdata[k], v)`. -/
def appendMD (mdata : List (String × List String)) (k v : String) : List (String × List String) :=
  Map.insert k ((mdata.lookup k).getD [] ++ [v]) mdata

/-- One turn of the loop `for _, hf := range frame.Fields`. -/
def scanField (env : ServerEnv) (sc : headerScan) (hf : String × String) : headerScan :=
  let (name, value) := hf
  if name = "content-type" then
    let (contentSubtype, validContentType) := ContentSubtype value
    if !validContentType then sc
    else { sc with mdata := appendMD sc.mdata name value, contentSubtype, isGRPC := true }
  else if name = "grpc-encoding" then { sc with recvCompress := value }
  else if name = ":method" then { sc with httpMethod := value }
  else if name = ":path" then { sc with method := value }
  else if name = "grpc-timeout" then
    -- a failed decoding leaves `timeout` as `0`
    match decodeTimeout value with
    | .ok timeout => { sc with timeoutSet := true, timeout }
    | .error _ => { sc with timeoutSet := true, timeout := 0, headerError := true }
  else if name = "connection" then { sc with headerError := true }
  else if isReservedHeader name && !isWhitelistedHeader name then sc
  else
    match decodeMetadataHeader env name value with
    | .ok v => { sc with mdata := appendMD sc.mdata name v }
    | .error _ => { sc with headerError := true }

/-- The loop over all the fields. -/
def scanFields (env : ServerEnv) (fields : List (String × String)) : headerScan :=
  fields.foldl (scanField env) headerScan.init

/-! ## The transport -/

/-- `transportState`. -/
inductive transportState
  | reachable
  | closing
  | draining
  deriving DecidableEq, Repr

/-- The HTTP/2 error codes a server resets a stream with here. -/
inductive http2ErrCode
  | frameSize
  | protocol
  | refusedStream
  deriving DecidableEq, Repr

/-- The fields of the `*Stream` that `operateHeaders` makes. -/
structure serverStream where
  id : UInt32
  method : String
  recvCompress : String
  contentSubtype : String
  /-- `s.state = streamReadDone`: the header block ended the stream. -/
  readDone : Bool
  /-- The `grpc-timeout`, when set. -/
  timeout : Option Int
  md : List (String × List String)
  deriving DecidableEq, Repr

/-- The control items `operateHeaders` puts. -/
inductive serverItem
  | cleanupStream (streamID : UInt32) (rstCode : http2ErrCode)
  | earlyAbortStream (httpStatus : Nat) (streamID : UInt32) (contentSubtype : String)
      (status : Status)
  | registerStream (streamID : UInt32)
  deriving DecidableEq, Repr

/-- An `http2Server`, by the fields `operateHeaders` reads and writes. -/
structure http2Server where
  state : transportState
  maxStreams : UInt32
  activeStreams : List (UInt32 × serverStream)
  maxStreamID : UInt32
  deriving DecidableEq, Repr

/-- A new server transport with `config.MaxStreams` as given; `0` means no limit. -/
def newHTTP2Server (maxStreams : UInt32) : http2Server :=
  ⟨.reachable, if maxStreams = 0 then 4294967295 else maxStreams, [], 0⟩

/-- A `*http2.MetaHeadersFrame`, by what `operateHeaders` reads. -/
structure MetaHeadersFrame where
  streamID : UInt32
  Truncated : Bool
  Fields : List (String × String)
  StreamEnded : Bool
  deriving DecidableEq, Repr

/-- `status.FromError(err)`, falling back to `PermissionDenied` with the error's text. -/
def tapStatus : GoError → Status
  | .status st => st
  | .text msg => ⟨.permissionDenied, msg⟩

/-- The message of the early abort for several `:authority` or `host` values. -/
def authorityErrMsg (nAuthority nHost : Nat) : String :=
  "num values of :authority: " ++ toString nAuthority ++ ", num values of host: " ++
    toString nHost ++ ", both must only have 1 value as per HTTP/2 spec"

/-- The metadata after A41's renaming: `host` becomes `:authority` when that is missing, and is
discarded otherwise. -/
def renameHost (mdata : List (String × List String)) : List (String × List String) :=
  if ((mdata.lookup ":authority").getD []).length = 0 then
    match mdata.lookup "host" with
    | some host => Map.erase "host" (Map.insert ":authority" host mdata)
    | none => mdata
  else Map.erase "host" mdata

/-- `t.operateHeaders(frame, handle, traceCtx)`: whether the frame is fatal, the control items
put, and the transport after. -/
def http2Server.operateHeaders (env : ServerEnv) (t : http2Server) (frame : MetaHeadersFrame) :
    Bool × List serverItem × http2Server :=
  let streamID := frame.streamID
  if frame.Truncated then (false, [.cleanupStream streamID .frameSize], t)
  else
    let sc := scanFields env frame.Fields
    let nAuthority := ((sc.mdata.lookup ":authority").getD []).length
    let nHost := ((sc.mdata.lookup "host").getD []).length
    if nAuthority > 1 ∨ nHost > 1 then
      (false, [.earlyAbortStream 400 streamID sc.contentSubtype
        ⟨.internal, authorityErrMsg nAuthority nHost⟩], t)
    else if !sc.isGRPC || sc.headerError then (false, [.cleanupStream streamID .protocol], t)
    else
      let s : serverStream := ⟨streamID, sc.method, sc.recvCompress, sc.contentSubtype,
        frame.StreamEnded, if sc.timeoutSet then some sc.timeout else none, renameHost sc.mdata⟩
      if t.state ≠ .reachable then (false, [], t)
      else if UInt32.ofNat t.activeStreams.length ≥ t.maxStreams then
        (false, [.cleanupStream streamID .refusedStream], t)
      -- illegal gRPC stream id
      else if streamID % 2 ≠ 1 ∨ streamID ≤ t.maxStreamID then (true, [], t)
      else
        let t := { t with maxStreamID := streamID }
        if sc.httpMethod ≠ "POST" then (false, [.cleanupStream streamID .protocol], t)
        else
          match env.inTapHandle.bind fun tap => tap s.method with
          | some err => (false, [.earlyAbortStream 200 streamID s.contentSubtype (tapStatus err)], t)
          | none =>
            (false, [.registerStream streamID],
              { t with activeStreams := Map.insert streamID s t.activeStreams })

/-- What happens to the transport next. -/
inductive ServerEvent
  /-- `HandleStreams` reads a header block. -/
  | headers (frame : MetaHeadersFrame)
  /-- A stream finishes: `t.deleteStream(s)`. -/
  | streamDone (streamID : UInt32)
  /-- `t.Close()` (`closing`) or a GOAWAY sent (`draining`). -/
  | setState (state : transportState)
  deriving DecidableEq, Repr

/-- What the server does on an event: the items put, with `none` for a frame that is fatal, and
the transport after. -/
def http2Server.step (env : ServerEnv) (t : http2Server) :
    ServerEvent → List (Option serverItem) × http2Server
  | .headers frame =>
    let r := t.operateHeaders env frame
    ((if r.1 then [none] else []) ++ r.2.1.map some, r.2.2)
  | .streamDone streamID => ([], { t with activeStreams := Map.erase streamID t.activeStreams })
  | .setState state => ([], { t with state })

/-! ## What one header block does -/

/-- The frame gets as far as the stream id check: its header list is whole, it has at most one
`:authority` and one `host`, it speaks gRPC without a malformed field, and the transport is
reachable with room for another stream. -/
def ReachesIdCheck (env : ServerEnv) (t : http2Server) (frame : MetaHeadersFrame) : Prop :=
  frame.Truncated = false ∧
    (((scanFields env frame.Fields).mdata.lookup ":authority").getD []).length ≤ 1 ∧
    (((scanFields env frame.Fields).mdata.lookup "host").getD []).length ≤ 1 ∧
    (scanFields env frame.Fields).isGRPC = true ∧
    (scanFields env frame.Fields).headerError = false ∧
    t.state = .reachable ∧ UInt32.ofNat t.activeStreams.length < t.maxStreams

instance (env : ServerEnv) (t : http2Server) (frame : MetaHeadersFrame) :
    Decidable (ReachesIdCheck env t frame) :=
  inferInstanceAs (Decidable (_ ∧ _ ∧ _ ∧ _ ∧ _ ∧ _ ∧ _))

/-- A stream id the check lets through: odd and above every id recorded. -/
def GoodId (t : http2Server) (streamID : UInt32) : Prop :=
  streamID % 2 = 1 ∧ t.maxStreamID < streamID

instance (t : http2Server) (streamID : UInt32) : Decidable (GoodId t streamID) :=
  inferInstanceAs (Decidable (_ ∧ _))

/-- The streams registered by a list of control items. -/
def registeredIn (items : List serverItem) : List UInt32 :=
  items.filterMap fun
    | .registerStream streamID => some streamID
    | _ => none

theorem grpc_ok_iff {a b : Bool} : ¬ ((!a || b) = true) ↔ a = true ∧ b = false := by
  cases a <;> cases b <;> decide

/-- A frame stopped before the id check is not fatal, registers nothing and leaves the transport
as it was: its id is not recorded in `maxStreamID`. -/
theorem operateHeaders_of_not_reaches {env : ServerEnv} {t : http2Server}
    {frame : MetaHeadersFrame} (h : ¬ ReachesIdCheck env t frame) :
    (t.operateHeaders env frame).1 = false ∧ registeredIn (t.operateHeaders env frame).2.1 = [] ∧
      (t.operateHeaders env frame).2.2 = t := by
  unfold http2Server.operateHeaders
  dsimp only
  split_ifs with htr hdup hgrpc hstate hroom
  -- the five checks before the id check
  · exact ⟨rfl, rfl, rfl⟩
  · exact ⟨rfl, rfl, rfl⟩
  · exact ⟨rfl, rfl, rfl⟩
  · exact ⟨rfl, rfl, rfl⟩
  · exact ⟨rfl, rfl, rfl⟩
  -- past them the frame reaches the id check
  all_goals
    exfalso
    obtain ⟨hg, he⟩ := grpc_ok_iff.mp hgrpc
    exact h ⟨by simpa using htr, by omega, by omega, hg, he, by simpa using hstate,
      UInt32.not_le.mp hroom⟩

/-- A frame that reaches the id check with an id the check rejects is fatal, and changes
nothing. -/
theorem operateHeaders_of_bad_id {env : ServerEnv} {t : http2Server} {frame : MetaHeadersFrame}
    (h : ReachesIdCheck env t frame) (hbad : ¬ GoodId t frame.streamID) :
    t.operateHeaders env frame = (true, [], t) := by
  obtain ⟨htr, hauth, hhost, hgrpc, herr, hstate, hroom⟩ := h
  unfold http2Server.operateHeaders
  dsimp only
  rw [if_neg (by simp [htr]), if_neg (by omega), if_neg (by simp [hgrpc, herr]),
    if_neg (by simp [hstate]), if_neg (UInt32.not_le.mpr hroom), if_pos]
  unfold GoodId at hbad
  by_contra hgood
  rw [not_or, not_not] at hgood
  exact hbad ⟨hgood.1, UInt32.not_le.mp hgood.2⟩

/-- A frame that reaches the id check with an id it accepts is not fatal and records its id as
`maxStreamID`; it registers its stream or nothing. -/
theorem operateHeaders_of_good_id {env : ServerEnv} {t : http2Server} {frame : MetaHeadersFrame}
    (h : ReachesIdCheck env t frame) (hgood : GoodId t frame.streamID) :
    (t.operateHeaders env frame).1 = false ∧
      (t.operateHeaders env frame).2.2.maxStreamID = frame.streamID ∧
      (registeredIn (t.operateHeaders env frame).2.1).Sublist [frame.streamID] := by
  obtain ⟨htr, hauth, hhost, hgrpc, herr, hstate, hroom⟩ := h
  obtain ⟨hodd, hgt⟩ := hgood
  unfold http2Server.operateHeaders
  dsimp only
  rw [if_neg (by simp [htr]), if_neg (by omega), if_neg (by simp [hgrpc, herr]),
    if_neg (by simp [hstate]), if_neg (UInt32.not_le.mpr hroom),
    if_neg (by simp [hodd, UInt32.not_le.mpr hgt])]
  by_cases hpost : (scanFields env frame.Fields).httpMethod ≠ "POST"
  · rw [if_pos hpost]
    exact ⟨rfl, rfl, by simp [registeredIn]⟩
  · -- refused by the tap handle, or registered
    rw [if_neg hpost]
    split
    · exact ⟨rfl, rfl, by simp [registeredIn]⟩
    · exact ⟨rfl, rfl, by simp [registeredIn]⟩

/-! ## Along a run -/

/-- The streams registered by the outputs of a run. -/
def registered (out : List (Option serverItem)) : List UInt32 :=
  registeredIn (out.filterMap id)

theorem registered_append (out out' : List (Option serverItem)) :
    registered (out ++ out') = registered out ++ registered out' := by
  simp [registered, registeredIn, List.filterMap_append]

theorem registered_headers (env : ServerEnv) (t : http2Server) (frame : MetaHeadersFrame) :
    registered (t.step env (.headers frame)).1 = registeredIn (t.operateHeaders env frame).2.1 := by
  simp only [http2Server.step, registered, List.filterMap_append, List.filterMap_map]
  split <;> simp [registeredIn]

/-- **One event.**  `maxStreamID` never falls, and a stream registered has an id above the
`maxStreamID` before the event and at most the one after; one event registers at most one
stream. -/
theorem step_registered (env : ServerEnv) (t : http2Server) (e : ServerEvent) :
    t.maxStreamID ≤ (t.step env e).2.maxStreamID ∧
      (registered (t.step env e).1).Pairwise (· < ·) ∧
      ∀ id ∈ registered (t.step env e).1,
        t.maxStreamID < id ∧ id ≤ (t.step env e).2.maxStreamID := by
  cases e with
  | headers frame =>
    have hstate : (t.step env (.headers frame)).2 = (t.operateHeaders env frame).2.2 := rfl
    rw [registered_headers, hstate]
    by_cases hreach : ReachesIdCheck env t frame
    · by_cases hgood : GoodId t frame.streamID
      · -- the id is recorded; the stream registered, if any, is this one
        obtain ⟨-, hmax, hsub⟩ := operateHeaders_of_good_id hreach hgood
        refine ⟨?_, (List.pairwise_singleton _ _).sublist hsub, fun id hid => ?_⟩
        · rw [hmax]
          exact UInt32.le_of_lt hgood.2
        · have hid' : id = frame.streamID := List.mem_singleton.mp (hsub.subset hid)
          rw [hmax, hid']
          exact ⟨hgood.2, UInt32.le_refl _⟩
      · rw [operateHeaders_of_bad_id hreach hgood]
        exact ⟨UInt32.le_refl _, List.Pairwise.nil, fun _ h => by cases h⟩
    · obtain ⟨-, hnone, hsame⟩ := operateHeaders_of_not_reaches hreach
      rw [hnone, hsame]
      exact ⟨UInt32.le_refl _, List.Pairwise.nil, fun _ h => by cases h⟩
  | streamDone streamID => exact ⟨UInt32.le_refl _, List.Pairwise.nil, fun _ h => by cases h⟩
  | setState state => exact ⟨UInt32.le_refl _, List.Pairwise.nil, fun _ h => by cases h⟩

/-- **Registered stream ids increase along every run.**  From any transport, whatever header
blocks arrive and whatever else happens, `maxStreamID` never falls, the streams registered have
strictly increasing ids, each above the `maxStreamID` at the start and at most the one at the
end. -/
theorem registered_increasing (env : ServerEnv) (t : http2Server) (es : List ServerEvent) :
    t.maxStreamID ≤ (Machine.run (http2Server.step env) t es).2.maxStreamID ∧
      (registered (Machine.run (http2Server.step env) t es).1).Pairwise (· < ·) ∧
      ∀ id ∈ registered (Machine.run (http2Server.step env) t es).1,
        t.maxStreamID < id ∧ id ≤ (Machine.run (http2Server.step env) t es).2.maxStreamID := by
  induction es generalizing t with
  | nil => exact ⟨UInt32.le_refl _, List.Pairwise.nil, fun _ h => by cases h⟩
  | cons e es ih =>
    obtain ⟨hmono, hpair, hids⟩ := step_registered env t e
    obtain ⟨hmono', hpair', hids'⟩ := ih (t.step env e).2
    rw [Machine.run_cons, registered_append]
    refine ⟨UInt32.le_trans hmono hmono', List.pairwise_append.mpr ⟨hpair, hpair', ?_⟩, ?_⟩
    · -- the streams of the first event come before those of the rest
      intro a ha b hb
      exact UInt32.lt_of_le_of_lt (hids a ha).2 (hids' b hb).1
    · intro id hid
      rcases List.mem_append.mp hid with hid | hid
      · exact ⟨(hids id hid).1, UInt32.le_trans (hids id hid).2 hmono'⟩
      · exact ⟨UInt32.lt_of_le_of_lt hmono (hids' id hid).1, (hids' id hid).2⟩

/-- **A stream with a lower id than an earlier header block.**  A header block for stream `5`
whose header list was cut at the size limit is answered with RST_STREAM and leaves
`maxStreamID` at `0`; a gRPC request on stream `3` that follows is then registered, not found
fatal. -/
theorem operateHeaders_accepts_lower_id (decodeBinHeader : String → Except String String) :
    (Machine.run (http2Server.step ⟨decodeBinHeader, none⟩) (newHTTP2Server 0)
      [.headers ⟨5, true, [], false⟩,
        .headers ⟨3, false, [(":method", "POST"), (":path", "/Svc/Method"),
          ("content-type", "application/grpc")], false⟩]).1 =
      [some (.cleanupStream 5 .frameSize), some (.registerStream 3)] := by
  rfl

end Transport
end GrpcGo
