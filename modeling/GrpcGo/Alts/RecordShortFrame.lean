import GrpcGo.Alts.RecordRead

/-!
# Frames shorter than their type field

`ParseFramedMsg` checks the length field against the limit only, so a frame may be cut whose
length is below `msgTypeFieldSize`.  `Read` then slices that frame's message twice: `msg[:4]`,
which Go allows up to the capacity of the buffer and so reads past the frame into what follows
it (the next frame, or stale bytes of `protected`), and `msg[4:]`, which must stay within the
message.

* `decryptFrame_panics_iff`: the decryption of a cut frame panics exactly when its message is
  shorter than the type field and either the buffer behind it is too short for `msg[:4]`, or
  the first byte read there, the low byte of the message type, is `altsRecordMsgType`.
* `Read_short_frame_panics`: a peer that sends the five bytes `01 00 00 00 06` first makes
  every `Read` on a connection with nothing buffered panic, whatever follows on the wire and
  whatever the capacity of `protected`.
-/

namespace GrpcGo
namespace Alts

open GoStd GoStd.Binary

variable {σ : Type} {c : ALTSRecordCrypto σ}

/-- A byte is `altsRecordMsgType` exactly when it is as a `uint32`. -/
theorem toUInt32_eq_altsRecordMsgType (b : UInt8) : b.toUInt32 = altsRecordMsgType ↔ b = 6 := by
  constructor
  · intro h
    apply UInt8.toNat_inj.mp
    have hnat := congrArg UInt32.toNat h
    simpa [altsRecordMsgType] using hnat
  · rintro rfl
    rfl

/-- The type check reads the low byte of the four bytes `msg[:4]`. -/
theorem typeCheck_iff (s : Bytes) (h : msgTypeFieldSize ≤ s.length) :
    LittleEndian.Uint32 (s.take msgTypeFieldSize) &&& 0xff = altsRecordMsgType ↔
      s.head? = some 6 := by
  match s, h with
  | b0 :: b1 :: b2 :: b3 :: rest, _ =>
    rw [show msgTypeFieldSize = 4 from rfl, List.take_succ_cons, List.take_succ_cons,
      List.take_succ_cons, List.take_succ_cons, List.take_zero, LittleEndian.Uint32_and_ff,
      toUInt32_eq_altsRecordMsgType, List.head?_cons, Option.some_inj]

/-- **When the decryption of a frame panics.**  Every failure of `decryptFrame` is an error
except a slice out of range: `msg[:4]` past the capacity behind the frame, or `msg[4:]` on a
message shorter than the type field that passed the type check. -/
theorem decryptFrame_panics_iff (r : σ) (framedMsg after : Bytes) :
    (∃ m, decryptFrame c r framedMsg after = .error (.panic m)) ↔
      (framedMsg.drop MsgLenFieldSize).length < msgTypeFieldSize ∧
        ((framedMsg.drop MsgLenFieldSize).length + after.length < msgTypeFieldSize ∨
          (framedMsg.drop MsgLenFieldSize ++ after).head? = some 6) := by
  unfold decryptFrame
  generalize framedMsg.drop MsgLenFieldSize = msg
  by_cases hcap : msgTypeFieldSize ≤ msg.length + after.length
  · -- `msg[:4]` is in range, and the type check reads the first byte behind the length field
    have hcap' : msgTypeFieldSize ≤ (msg ++ after).length := by
      rw [List.length_append]
      exact hcap
    have htype := typeCheck_iff (msg ++ after) hcap'
    dsimp only
    rw [sliceTo, if_pos hcap, Except.ok_bind]
    by_cases hsix : (msg ++ after).head? = some 6
    · rw [if_neg (not_not.mpr (htype.mpr hsix))]
      by_cases hlen : msgTypeFieldSize ≤ msg.length
      · -- `msg[4:]` is in range too: what fails is the decryption, as an error
        rw [sliceFrom_of_le hlen]
        simp only [Except.ok_bind]
        constructor
        · rintro ⟨m, hm⟩
          cases hd : c.Decrypt r [] (msg.drop msgTypeFieldSize) <;>
            simp [hd, Except.mapError] at hm
        · rintro ⟨hshort, -⟩
          omega
      · -- `msg[4:]` on a message shorter than the type field
        rw [sliceFrom, if_neg hlen]
        simp only [Except.error_bind]
        exact ⟨fun _ => ⟨by omega, .inr hsix⟩, fun _ => ⟨_, rfl⟩⟩
    · -- the type check fails, with an error
      rw [if_pos (fun h => hsix (htype.mp h))]
      simp only [Except.throw_eq_error, Except.error_bind]
      constructor
      · rintro ⟨m, hm⟩
        cases hm
      · rintro ⟨-, hout | hsix'⟩
        · omega
        · exact absurd hsix' hsix
  · -- `msg[:4]` past the capacity
    dsimp only
    rw [sliceTo, if_neg hcap]
    simp only [Except.error_bind]
    exact ⟨fun _ => ⟨by omega, .inl (by omega)⟩, fun _ => ⟨_, rfl⟩⟩

/-- The five bytes of a frame of length `1` whose one byte is `altsRecordMsgType`. -/
def shortFrame : Bytes := [1, 0, 0, 0, 6]

theorem isFrame_shortFrame : IsFrame shortFrame := by decide

/-- **A short frame makes `Read` panic.**  On a connection with nothing decrypted or buffered,
whatever its counters and its `protected` buffer, a peer that sends `shortFrame` followed by
anything makes `Read` fail with a slice out of range, never with an error: the frame passes
`ParseFramedMsg`, its one byte passes the type check, and `msg[4:]` is out of range. -/
theorem Read_short_frame_panics (c : ALTSRecordCrypto σ) (p : conn σ) (k : Nat) (more : Bytes)
    (rest : List Bytes) :
    ∃ m, (Read c
      { p with buf := [], nextFrame := [],
               Conn := { p.Conn with incoming := (shortFrame ++ more) :: rest } } k).1 =
      .error (.panic m) := by
  set p₀ : conn σ :=
    { p with buf := [], nextFrame := [],
             Conn := { p.Conn with incoming := (shortFrame ++ more) :: rest } } with hp₀
  -- nothing is buffered, so `Read` moves the empty next frame to the front and reads the wire
  have hdata : (compact { p₀ with nextFrame := [] }).protectedBuf.data = [] :=
    (compact_protectedBuf (by simp)).1
  have hwire : (compact { p₀ with nextFrame := [] }).protectedBuf.data ++
      (compact { p₀ with nextFrame := [] }).Conn.incoming.flatten =
        shortFrame ++ (more ++ rest.flatten) := by
    rw [hdata, List.nil_append]
    simp [compact, hp₀]
  obtain ⟨p', hread, -⟩ := readFrame_complete isFrame_shortFrame _ hwire
    (by rw [hdata]; decide)
  -- the frame's message is the one byte `6`
  obtain ⟨m, hm⟩ := (decryptFrame_panics_iff (c := c) p'.crypto shortFrame
    (p'.nextFrame ++ p'.protectedBuf.spare)).mpr ⟨by decide, .inr rfl⟩
  refine ⟨m, ?_⟩
  have hnf : p₀.nextFrame = [] := rfl
  unfold Read
  rw [if_pos (show p₀.buf.length = 0 from rfl)]
  simp only [hnf, ParseFramedMsg_nil, List.length_nil, if_true, hread, hm]

end Alts
end GrpcGo
