import GrpcGo.RpcUtil.Parser

/-!
# Reading back what `msgHeader` frames

A message is sent as `msgHeader`'s header followed by its payload (`encodeMsg`).  Over a stream
holding such messages, in any chunks, `parser.recvMsg` returns each message's format and payload
in turn (`recvMsg_ok`), refuses a nonempty message longer than the limit before reading its body
(`recvMsg_too_large`), reports `io.EOF` at the end (`recvMsg_eof`) and `io.ErrUnexpectedEOF`
when the stream stops inside a body (`recvMsg_cut`).  `recvMsgs_within` runs it over a list of
messages.

An empty message is returned before the length is compared with the limit, so it is accepted
whatever the limit, a negative one included.
-/

namespace GrpcGo

open GoStd GoStd.Binary Transport

/-! ## Messages on the wire -/

/-- The payload of a message (`data`, `compData`): `compData` when there is one. -/
def msgPayload (m : Bytes × Option Bytes) : Bytes := (msgHeader m.1 m.2).2

/-- The payload format of a message. -/
def msgFormat (m : Bytes × Option Bytes) : payloadFormat :=
  if m.2.isSome then compressionMade else compressionNone

/-- What the sender writes for a message: the header, then the payload. -/
def encodeMsg (m : Bytes × Option Bytes) : Bytes := (msgHeader m.1 m.2).1 ++ (msgHeader m.1 m.2).2

/-- `recvMsg` accepts a message of this length: it is empty, or within the limit. -/
def Accepted (maxReceiveMessageSize : Int) (m : Bytes × Option Bytes) : Prop :=
  (msgPayload m).length = 0 ∨ ((msgPayload m).length : Int) ≤ maxReceiveMessageSize

instance (maxReceiveMessageSize : Int) (m : Bytes × Option Bytes) :
    Decidable (Accepted maxReceiveMessageSize m) :=
  inferInstanceAs (Decidable (_ ∨ _))

theorem msgHeader_fst (m : Bytes × Option Bytes) :
    (msgHeader m.1 m.2).1 =
      msgFormat m :: BigEndian.PutUint32 (UInt32.ofNat (msgPayload m).length) := by
  rcases m with ⟨data, _ | compData⟩ <;> rfl

theorem length_msgHeader_fst (m : Bytes × Option Bytes) :
    (msgHeader m.1 m.2).1.length = headerLen := by
  rw [msgHeader_fst]
  rfl

/-- The header read back: the format byte, and the length of the payload. -/
theorem header_fields (m : Bytes × Option Bytes) (hsize : (msgPayload m).length < 2 ^ 32) :
    (msgHeader m.1 m.2).1.headD 0 = msgFormat m ∧
      (BigEndian.Uint32 ((msgHeader m.1 m.2).1.drop payloadLen)).toNat = (msgPayload m).length := by
  rw [msgHeader_fst]
  refine ⟨rfl, ?_⟩
  have hpay : (msgFormat m :: BigEndian.PutUint32 (UInt32.ofNat (msgPayload m).length)).drop
      payloadLen = BigEndian.PutUint32 (UInt32.ofNat (msgPayload m).length) ++ [] := by
    rw [List.append_nil]
    rfl
  rw [hpay, BigEndian.Uint32_PutUint32, UInt32.toNat_ofNat_of_lt' hsize]

/-- A stream cut `cut` bytes into a message's body: the header and the first `cut` bytes. -/
theorem take_encodeMsg (m : Bytes × Option Bytes) (cut : Nat) :
    (encodeMsg m).take (headerLen + cut) = (msgHeader m.1 m.2).1 ++ (msgPayload m).take cut := by
  rw [encodeMsg, ← length_msgHeader_fst m, List.take_length_add_append]
  rfl

/-! ## One stream read -/

/-- A read of `size` bytes from a stream that has them and has not failed. -/
theorem Stream.Read_of_le {s : Stream} (size : Nat) (her : s.trReader.er = none)
    (h : size ≤ s.trReader.reader.flatten.length) :
    ∃ s', s.Read size = ((s.trReader.reader.flatten.take size, none), s') ∧
      s'.trReader.reader.flatten = s.trReader.reader.flatten.drop size ∧ s'.trReader.er = none := by
  obtain ⟨t', hfull, hrest, her'⟩ := ReadFull_of_le h
  refine ⟨⟨t'⟩, ?_, hrest, her'.trans her⟩
  simp only [Stream.Read, her, hfull]

/-- A read of more bytes than the stream has left: what is left, and `io.EOF` or
`io.ErrUnexpectedEOF`. -/
theorem Stream.Read_of_lt {s : Stream} (size : Nat) (her : s.trReader.er = none)
    (h : s.trReader.reader.flatten.length < size) :
    ∃ s', s.Read size = ((s.trReader.reader.flatten,
        some (if s.trReader.reader.flatten = [] then Io.EOF else Io.ErrUnexpectedEOF)), s') ∧
      s'.trReader.reader = [] ∧ s'.trReader.er = some Io.EOF := by
  obtain ⟨t', hfull, hnil, her'⟩ := ReadFull_of_lt h
  refine ⟨⟨t'⟩, ?_, hnil, her'⟩
  simp only [Stream.Read, her, hfull]

/-! ## One message -/

section OneMessage

variable {maxReceiveMessageSize : Int} {p : parser} {m : Bytes × Option Bytes}

/-- The header of the next message, read off the stream. -/
theorem recvMsg_header_read (her : p.r.trReader.er = none) {rest : Bytes}
    (hwire : p.r.trReader.reader.flatten = (msgHeader m.1 m.2).1 ++ rest) :
    ∃ r, p.r.Read headerLen = (((msgHeader m.1 m.2).1, none), r) ∧
      r.trReader.reader.flatten = rest ∧ r.trReader.er = none := by
  have hlen := length_msgHeader_fst m
  obtain ⟨r, hread, hrest, her'⟩ := Stream.Read_of_le headerLen her
    (by rw [hwire, List.length_append, hlen]; omega)
  refine ⟨r, ?_, ?_, her'⟩
  · rw [hread, hwire, ← hlen, List.take_left]
  · rw [hrest, hwire, ← hlen, List.drop_left]

/-- The length of the next message is within the `maxInt` check. -/
theorem not_gt_maxInt {n : Nat} (hn : n < 2 ^ 32) : ¬ (n : Int) > maxInt := by
  unfold maxInt
  omega

/-- The length field of a nonempty message is not zero. -/
theorem length_field_ne_zero (hsize : (msgPayload m).length < 2 ^ 32)
    (hpos : 0 < (msgPayload m).length) :
    BigEndian.Uint32 ((msgHeader m.1 m.2).1.drop payloadLen) ≠ 0 := fun h0 => by
  have hlength := (header_fields m hsize).2
  rw [h0, UInt32.toNat_zero] at hlength
  omega

/-- A message `recvMsg` accepts comes back whole, with its format. -/
theorem recvMsg_ok (her : p.r.trReader.er = none) {rest : Bytes}
    (hwire : p.r.trReader.reader.flatten = encodeMsg m ++ rest)
    (hsize : (msgPayload m).length < 2 ^ 32) (hacc : Accepted maxReceiveMessageSize m) :
    ∃ p', p.recvMsg maxReceiveMessageSize = (.ok (msgFormat m, msgPayload m), p') ∧
      p'.r.trReader.reader.flatten = rest ∧ p'.r.trReader.er = none := by
  obtain ⟨hfmt, hlength⟩ := header_fields m hsize
  have hwire' : p.r.trReader.reader.flatten = (msgHeader m.1 m.2).1 ++ (msgPayload m ++ rest) := by
    rw [hwire, encodeMsg, List.append_assoc]
    rfl
  obtain ⟨r, hread, hrest, her'⟩ := recvMsg_header_read her hwire'
  unfold parser.recvMsg
  rw [hread]
  simp only [hfmt]
  by_cases hzero : (msgPayload m).length = 0
  · -- an empty message is returned before any size check
    have hlen0 : BigEndian.Uint32 ((msgHeader m.1 m.2).1.drop payloadLen) = 0 :=
      UInt32.toNat_inj.mp (by rw [hlength, hzero]; rfl)
    rw [if_pos hlen0, List.eq_nil_of_length_eq_zero hzero]
    exact ⟨_, rfl, by rw [hrest, List.eq_nil_of_length_eq_zero hzero, List.nil_append], her'⟩
  · have hle : ((msgPayload m).length : Int) ≤ maxReceiveMessageSize := hacc.resolve_left hzero
    have hne := length_field_ne_zero hsize (Nat.pos_of_ne_zero hzero)
    obtain ⟨r', hbody, hrest', her''⟩ := Stream.Read_of_le (msgPayload m).length her'
      (by rw [hrest, List.length_append]; omega)
    rw [if_neg hne, hlength, if_neg (not_gt_maxInt hsize), if_neg (by omega), hbody, hrest,
      List.take_left]
    exact ⟨_, rfl, by rw [hrest', hrest, List.drop_left], her''⟩

/-- A nonempty message longer than the limit is refused once its header is read; its body is
still on the stream. -/
theorem recvMsg_too_large (her : p.r.trReader.er = none) {rest : Bytes}
    (hwire : p.r.trReader.reader.flatten = encodeMsg m ++ rest)
    (hsize : (msgPayload m).length < 2 ^ 32) (hpos : 0 < (msgPayload m).length)
    (hmax : maxReceiveMessageSize < (msgPayload m).length) :
    ∃ p', p.recvMsg maxReceiveMessageSize =
        (.error (.status ⟨.resourceExhausted, "grpc: received message larger than max (" ++
          toString (msgPayload m).length ++ " vs. " ++ toString maxReceiveMessageSize ++ ")"⟩),
          p') ∧
      p'.r.trReader.reader.flatten = msgPayload m ++ rest ∧ p'.r.trReader.er = none := by
  obtain ⟨hfmt, hlength⟩ := header_fields m hsize
  have hwire' : p.r.trReader.reader.flatten = (msgHeader m.1 m.2).1 ++ (msgPayload m ++ rest) := by
    rw [hwire, encodeMsg, List.append_assoc]
    rfl
  obtain ⟨r, hread, hrest, her'⟩ := recvMsg_header_read her hwire'
  have hne := length_field_ne_zero hsize hpos
  unfold parser.recvMsg
  rw [hread]
  simp only
  rw [if_neg hne, hlength, if_neg (not_gt_maxInt hsize), if_pos (by omega)]
  -- `%d` of the `uint32` length is the decimal of its value
  have htext : toString (BigEndian.Uint32 ((msgHeader m.1 m.2).1.drop payloadLen)) =
      toString (msgPayload m).length := by
    rw [show toString (BigEndian.Uint32 ((msgHeader m.1 m.2).1.drop payloadLen)) =
      toString (BigEndian.Uint32 ((msgHeader m.1 m.2).1.drop payloadLen)).toNat from rfl, hlength]
  rw [htext]
  exact ⟨_, rfl, hrest, her'⟩

/-- At the end of the stream the header read fails with `io.EOF`, and so does every read
after. -/
theorem recvMsg_eof (her : p.r.trReader.er = none) (hend : p.r.trReader.reader.flatten = []) :
    ∃ p', p.recvMsg maxReceiveMessageSize = (.error (.text Io.EOF), p') ∧
      p'.r.trReader.reader = [] ∧ p'.r.trReader.er = some Io.EOF := by
  obtain ⟨r, hread, hnil, her'⟩ := Stream.Read_of_lt headerLen her
    (by rw [hend]; decide)
  unfold parser.recvMsg
  rw [hread, if_pos hend]
  exact ⟨_, rfl, hnil, her'⟩

/-- A stream that stops inside the body of a message `recvMsg` accepts: the body read fails
with `io.ErrUnexpectedEOF`, whether some of the body came or none. -/
theorem recvMsg_cut (her : p.r.trReader.er = none) {body : Bytes}
    (hwire : p.r.trReader.reader.flatten = (msgHeader m.1 m.2).1 ++ body)
    (hsize : (msgPayload m).length < 2 ^ 32) (hpos : 0 < (msgPayload m).length)
    (hmax : ((msgPayload m).length : Int) ≤ maxReceiveMessageSize)
    (hcut : body.length < (msgPayload m).length) :
    ∃ p', p.recvMsg maxReceiveMessageSize = (.error (.text Io.ErrUnexpectedEOF), p') := by
  obtain ⟨-, hlength⟩ := header_fields m hsize
  obtain ⟨r, hread, hrest, her'⟩ := recvMsg_header_read her hwire
  have hne := length_field_ne_zero hsize hpos
  obtain ⟨r', hbody, -, -⟩ := Stream.Read_of_lt (msgPayload m).length her'
    (by rw [hrest]; exact hcut)
  unfold parser.recvMsg
  rw [hread]
  simp only
  rw [if_neg hne, hlength, if_neg (not_gt_maxInt hsize), if_neg (by omega), hbody]
  -- `io.EOF` (nothing of the body came) is turned into `io.ErrUnexpectedEOF`
  by_cases hnil : r.trReader.reader.flatten = []
  · simp only [if_pos hnil]
    exact ⟨_, rfl⟩
  · have hunexpected : Io.ErrUnexpectedEOF ≠ Io.EOF := by decide
    simp only [if_neg hnil, if_neg hunexpected]
    exact ⟨_, rfl⟩

end OneMessage

/-! ## A run of messages -/

/-- `recvMsg` called `n` times in turn: the results, and the parser after. -/
def recvMsgs (maxReceiveMessageSize : Int) :
    parser → Nat → List (Except GoError (payloadFormat × Bytes)) × parser
  | p, 0 => ([], p)
  | p, n + 1 =>
    let step := p.recvMsg maxReceiveMessageSize
    let rest := recvMsgs maxReceiveMessageSize step.2 n
    (step.1 :: rest.1, rest.2)

/-- What `recvMsg` returns for a message it accepts. -/
def received (m : Bytes × Option Bytes) : Except GoError (payloadFormat × Bytes) :=
  .ok (msgFormat m, msgPayload m)

/-- The stream the sender writes for the messages `msgs`. -/
def wire (msgs : List (Bytes × Option Bytes)) : Bytes := (msgs.map encodeMsg).flatten

section Run

variable {maxReceiveMessageSize : Int}

/-- One more call after a run of `n`. -/
theorem recvMsgs_succ' :
    ∀ (n : Nat) (p : parser), recvMsgs maxReceiveMessageSize p (n + 1) =
      ((recvMsgs maxReceiveMessageSize p n).1 ++
          [((recvMsgs maxReceiveMessageSize p n).2.recvMsg maxReceiveMessageSize).1],
        ((recvMsgs maxReceiveMessageSize p n).2.recvMsg maxReceiveMessageSize).2)
  | 0, _ => rfl
  | n + 1, p => by
    rw [recvMsgs, recvMsgs_succ' n]
    rfl

/-- Every message of a run that `recvMsg` accepts comes back, in order, whatever the chunks the
stream arrives in; the parser is then at what follows them. -/
theorem recvMsgs_within :
    ∀ (msgs : List (Bytes × Option Bytes)) (p : parser) (rest : Bytes),
      p.r.trReader.er = none → p.r.trReader.reader.flatten = wire msgs ++ rest →
      (∀ m ∈ msgs, (msgPayload m).length < 2 ^ 32 ∧ Accepted maxReceiveMessageSize m) →
      ∃ p', recvMsgs maxReceiveMessageSize p msgs.length = (msgs.map received, p') ∧
        p'.r.trReader.reader.flatten = rest ∧ p'.r.trReader.er = none
  | [], p, rest, her, hwire, _ => ⟨p, rfl, hwire, her⟩
  | m :: msgs, p, rest, her, hwire, hok => by
    obtain ⟨hsize, hacc⟩ := hok m List.mem_cons_self
    have hwire' : p.r.trReader.reader.flatten = encodeMsg m ++ (wire msgs ++ rest) := by
      rw [hwire, wire, List.map_cons, List.flatten_cons, List.append_assoc]
      rfl
    obtain ⟨p₁, hstep, hrest₁, her₁⟩ := recvMsg_ok her hwire' hsize hacc
    -- the rest of the messages, from the parser after the first
    obtain ⟨p', hrun, hrest', her'⟩ := recvMsgs_within msgs p₁ rest her₁ hrest₁
      fun m' hm' => hok m' (List.mem_cons_of_mem _ hm')
    refine ⟨p', ?_, hrest', her'⟩
    rw [List.length_cons, recvMsgs, hstep]
    simp only [hrun]
    rfl

/-- A run over a stream that is `wire pre` and then `tail`: the messages of `pre` and then what
one more call returns on `tail`. -/
theorem recvMsgs_then {pre : List (Bytes × Option Bytes)} {p : parser} {tail : Bytes}
    (her : p.r.trReader.er = none) (hwire : p.r.trReader.reader.flatten = wire pre ++ tail)
    (hpre : ∀ m ∈ pre, (msgPayload m).length < 2 ^ 32 ∧ Accepted maxReceiveMessageSize m) :
    ∃ q : parser, q.r.trReader.er = none ∧ q.r.trReader.reader.flatten = tail ∧
      recvMsgs maxReceiveMessageSize p (pre.length + 1) =
        (pre.map received ++ [(q.recvMsg maxReceiveMessageSize).1],
          (q.recvMsg maxReceiveMessageSize).2) := by
  obtain ⟨q, hrun, hrest, her'⟩ := recvMsgs_within pre p tail her hwire hpre
  refine ⟨q, her', hrest, ?_⟩
  rw [recvMsgs_succ', hrun]

theorem wire_append_cons (pre : List (Bytes × Option Bytes)) (m : Bytes × Option Bytes)
    (post : List (Bytes × Option Bytes)) :
    wire (pre ++ m :: post) = wire pre ++ (encodeMsg m ++ wire post) := by
  rw [wire, List.map_append, List.flatten_append, List.map_cons, List.flatten_cons]
  rfl

/-- **Framing round trip.**  Over a stream holding the framed messages, in any chunks:
every message that is empty or within the limit is returned with its format, in order, and then
`io.EOF`; the first message refused, a nonempty one longer than the limit, gives
`ResourceExhausted` with its body still unread; and a stream that stops inside the body of an
accepted message gives `io.ErrUnexpectedEOF`. -/
theorem recvMsg_framing (p : parser) (her : p.r.trReader.er = none) :
    (∀ msgs : List (Bytes × Option Bytes), p.r.trReader.reader.flatten = wire msgs →
      (∀ m ∈ msgs, (msgPayload m).length < 2 ^ 32 ∧ Accepted maxReceiveMessageSize m) →
      (recvMsgs maxReceiveMessageSize p (msgs.length + 1)).1 =
        msgs.map received ++ [.error (.text Io.EOF)]) ∧
    (∀ pre m post, p.r.trReader.reader.flatten = wire (pre ++ m :: post) →
      (∀ m' ∈ pre, (msgPayload m').length < 2 ^ 32 ∧ Accepted maxReceiveMessageSize m') →
      (msgPayload m).length < 2 ^ 32 → 0 < (msgPayload m).length →
      maxReceiveMessageSize < (msgPayload m).length →
      ∃ p', recvMsgs maxReceiveMessageSize p (pre.length + 1) =
          (pre.map received ++ [.error (.status ⟨.resourceExhausted,
            "grpc: received message larger than max (" ++ toString (msgPayload m).length ++
              " vs. " ++ toString maxReceiveMessageSize ++ ")"⟩)], p') ∧
        p'.r.trReader.reader.flatten = msgPayload m ++ wire post) ∧
    (∀ pre m cut, p.r.trReader.reader.flatten = wire pre ++ (encodeMsg m).take (headerLen + cut) →
      (∀ m' ∈ pre, (msgPayload m').length < 2 ^ 32 ∧ Accepted maxReceiveMessageSize m') →
      (msgPayload m).length < 2 ^ 32 → ((msgPayload m).length : Int) ≤ maxReceiveMessageSize →
      cut < (msgPayload m).length →
      (recvMsgs maxReceiveMessageSize p (pre.length + 1)).1 =
        pre.map received ++ [.error (.text Io.ErrUnexpectedEOF)]) := by
  refine ⟨?all, ?tooLarge, ?cut⟩
  case all =>
    intro msgs hwire hmsgs
    have hwire' : p.r.trReader.reader.flatten = wire msgs ++ [] := by
      rw [hwire, List.append_nil]
    obtain ⟨q, herq, hq, hrun⟩ := recvMsgs_then her hwire' hmsgs
    obtain ⟨q', heof, -, -⟩ := @recvMsg_eof maxReceiveMessageSize q herq hq
    rw [hrun, heof]
  case tooLarge =>
    intro pre m post hwire hpre hsize hpos hmax
    rw [wire_append_cons] at hwire
    obtain ⟨q, herq, hq, hrun⟩ := recvMsgs_then her hwire hpre
    obtain ⟨q', hbig, hrest, -⟩ := recvMsg_too_large herq hq hsize hpos hmax
    exact ⟨q', by rw [hrun, hbig], hrest⟩
  case cut =>
    intro pre m cut hwire hpre hsize hmax hcut
    rw [take_encodeMsg] at hwire
    obtain ⟨q, herq, hq, hrun⟩ := recvMsgs_then her hwire hpre
    obtain ⟨q', hfail⟩ := recvMsg_cut herq hq hsize (by omega) hmax
      (by rw [List.length_take]; omega)
    rw [hrun, hfail]

end Run

/-- Two messages arriving in three chunks that split both headers, read with a limit of 3. -/
theorem recvMsg_framing_split_headers :
    (recvMsgs 3 ⟨⟨⟨[[0, 0, 0], [0, 2, 7, 8, 1, 0], [0, 0, 1, 9]], none⟩⟩⟩ 3).1 =
      [.ok (0, [7, 8]), .ok (1, [9]), .error (.text Io.EOF)] :=
  (recvMsg_framing _ rfl).1 [([7, 8], none), ([], some [9])] (by decide) (by decide)

/-- An empty message is longer than a negative limit, and is still returned. -/
theorem recvMsg_empty_over_negative_max :
    ((msgPayload ([], none)).length : Int) > -1 ∧
      (recvMsgs (-1) ⟨⟨⟨[encodeMsg ([], none)], none⟩⟩⟩ 1).1 = [.ok (compressionNone, [])] := by
  refine ⟨by decide, ?_⟩
  obtain ⟨q, hrun, -, -⟩ := @recvMsgs_within (-1) [([], none)]
    ⟨⟨⟨[encodeMsg ([], none)], none⟩⟩⟩ [] rfl rfl (by decide)
  rw [List.length_singleton] at hrun
  rw [hrun]
  rfl

end GrpcGo
