import GrpcGo.Alts.RecordWrite
import GrpcGo.Lib.ExceptBind
import GrpcGo.Lib.Channel

/-!
# Reading frames back

The reading end of a record connection refines an in-order byte channel (`Channel.Delivers`):
`Pending c p s` says that the connection `p` still has the plaintext `s` to deliver, because
what it has buffered and what the network still holds are the frames of ciphertexts that its
counters open, in order, to the pieces of `s`.  `read_front` and `read_end` are the two
obligations of `Channel.Delivers`; they rest on

* `ParseFramedMsg_of_frame_start`: a buffer that is a prefix of a frame (`IsFrame`) and what follows
  parses to the frame when the frame is complete, and to nothing otherwise;
* `readFrame_complete` and `readFrame_eof`: the growth loop of `Read`, by induction on what the
  network still holds, ends with the next frame, or with `io.EOF` when there is none.

The assumption on the record protocol is `CorrectAead`: the tag law of `SealsWithTag`, and that
`Decrypt` on counters in step with the `Encrypt` that sealed a ciphertext opens it and keeps
the counters in step.
-/

namespace GrpcGo
namespace Alts

open GoStd GoStd.Binary

variable {σ : Type} {c : ALTSRecordCrypto σ}

/-! ## The record protocol's opening -/

/-- The protocol is a correct AEAD: sealing appends the plaintext and the tag, and `Decrypt` on
counters in step with those of an `Encrypt` opens what it sealed and keeps them in step. -/
structure CorrectAead (c : ALTSRecordCrypto σ) (InStep : σ → σ → Prop) : Prop where
  seals : SealsWithTag c
  opens : ∀ {s r s' : σ} {dst p ct : Bytes}, InStep s r →
    c.Encrypt s dst p = .ok (dst ++ ct, s') → ∃ r', c.Decrypt r [] ct = .ok (p, r') ∧ InStep s' r'

/-- `Opens c r cts ps`: decrypting the ciphertexts `cts` in turn from the counters `r` gives the
plaintexts `ps`. -/
inductive Opens (c : ALTSRecordCrypto σ) : σ → List Bytes → List Bytes → Prop
  | nil (r : σ) : Opens c r [] []
  | cons {r r₁ : σ} {ct p : Bytes} {cts ps : List Bytes} :
    c.Decrypt r [] ct = .ok (p, r₁) → Opens c r₁ cts ps → Opens c r (ct :: cts) (p :: ps)

/-- What one side seals, the other side opens, from counters in step. -/
theorem Seals.opens {InStep : σ → σ → Prop} (hc : CorrectAead c InStep) {s s' r : σ}
    {ps cts : List Bytes} (h : Seals c s ps cts s') (hstep : InStep s r) : Opens c r cts ps := by
  induction h generalizing r with
  | nil => exact .nil r
  | cons he _ ih =>
    obtain ⟨r₁, hd, hstep₁⟩ := hc.opens hstep he
    exact .cons hd (ih hstep₁)

theorem Opens.eq_nil_iff {r : σ} {cts ps : List Bytes} (h : Opens c r cts ps) :
    cts = [] ↔ ps = [] := by
  cases h <;> simp

/-! ## Parsing -/

/-- The frame length limit, as a number. -/
theorem toNat_altsRecordLengthLimit : altsRecordLengthLimit.toNat = 1024 * 1024 := rfl

/-- `F` is one whole frame as `ParseFramedMsg` cuts it: it holds the length field, the length is
within the limit, and exactly that many bytes follow the field.  Nothing is said of the type
field: the parser does not look at it. -/
def IsFrame (F : Bytes) : Prop :=
  MsgLenFieldSize ≤ F.length ∧
    LittleEndian.Uint32 (F.take MsgLenFieldSize) ≤ altsRecordLengthLimit ∧
    (LittleEndian.Uint32 (F.take MsgLenFieldSize)).toNat + MsgLenFieldSize = F.length

instance (F : Bytes) : Decidable (IsFrame F) :=
  inferInstanceAs (Decidable (_ ∧ _ ∧ _))

/-- A buffer that is a prefix of a frame and what follows parses to that frame once the frame
is complete, and to no frame before. -/
theorem ParseFramedMsg_of_frame_start {F b rest : Bytes} (hF : IsFrame F) (hb : b <+: F ++ rest) :
    ParseFramedMsg b altsRecordLengthLimit =
      if F.length ≤ b.length then .ok (F, b.drop F.length) else .ok ([], b) := by
  obtain ⟨hF4, hmax, hlen⟩ := hF
  have hnot : ¬ LittleEndian.Uint32 (F.take MsgLenFieldSize) > altsRecordLengthLimit :=
    UInt32.not_lt.mpr hmax
  -- a buffer that holds the length field holds the frame's
  have hfield : MsgLenFieldSize ≤ b.length → b.take MsgLenFieldSize = F.take MsgLenFieldSize := by
    intro h4
    rw [List.prefix_iff_eq_take.mp hb, List.take_take, Nat.min_eq_left h4,
      List.take_append_of_le_length hF4]
  by_cases hfit : F.length ≤ b.length
  · have h4 : MsgLenFieldSize ≤ b.length := le_trans hF4 hfit
    have hshort : ¬ b.length < (LittleEndian.Uint32 (F.take MsgLenFieldSize)).toNat + 4 := by
      unfold MsgLenFieldSize at *
      omega
    -- the `uint32` sum `MsgLenFieldSize+length` does not wrap: the length is at most 1 MiB
    have hframeLen : (UInt32.ofNat MsgLenFieldSize +
        LittleEndian.Uint32 (F.take MsgLenFieldSize)).toNat = F.length := by
      have hle : (LittleEndian.Uint32 (F.take MsgLenFieldSize)).toNat ≤ 1024 * 1024 := by
        rw [← toNat_altsRecordLengthLimit]
        exact UInt32.le_iff_toNat_le.mp hmax
      rw [UInt32.toNat_add, UInt32.toNat_ofNat_of_lt' (by decide)]
      unfold MsgLenFieldSize at *
      omega
    have htake : b.take F.length = F := by
      rw [List.prefix_iff_eq_take.mp hb, List.take_take, Nat.min_eq_left hfit, List.take_left]
    rw [if_pos hfit, ParseFramedMsg, if_neg (Nat.not_lt.mpr h4)]
    dsimp only
    rw [hfield h4, if_neg hnot, if_neg hshort]
    simp only [hframeLen, htake]
  · rw [if_neg hfit]
    by_cases h4 : b.length < MsgLenFieldSize
    · rw [ParseFramedMsg, if_pos h4]
    · have hshort : b.length < (LittleEndian.Uint32 (F.take MsgLenFieldSize)).toNat + 4 := by
        unfold MsgLenFieldSize at *
        omega
      rw [ParseFramedMsg, if_neg h4]
      dsimp only
      rw [hfield (Nat.not_lt.mp h4), if_neg hnot, if_pos hshort]

/-- What `Write` emits is a frame: its length field counts the type field and the ciphertext. -/
theorem isFrame_frame {ct : Bytes} (hct : (frame ct).length ≤ altsRecordDefaultLength) :
    IsFrame (frame ct) := by
  have hlen := length_frame ct
  have hsmall : msgTypeFieldSize + ct.length < 2 ^ 32 := by
    unfold altsRecordDefaultLength MsgLenFieldSize msgTypeFieldSize at *
    omega
  have hfield : (LittleEndian.Uint32 ((frame ct).take MsgLenFieldSize)).toNat =
      msgTypeFieldSize + ct.length := by
    have hheader := (frame_header ct [] hsmall).1
    rw [List.append_nil] at hheader
    rw [show MsgLenFieldSize = 4 from rfl, LittleEndian.Uint32_take, hheader]
  refine ⟨?_, ?_, ?_⟩
  · rw [hlen]
    omega
  · rw [UInt32.le_iff_toNat_le, hfield, toNat_altsRecordLengthLimit]
    unfold altsRecordDefaultLength MsgLenFieldSize msgTypeFieldSize at *
    omega
  · rw [hfield, hlen]
    unfold MsgLenFieldSize msgTypeFieldSize
    omega

/-- With nothing buffered, there is no frame. -/
theorem ParseFramedMsg_nil : ParseFramedMsg [] altsRecordLengthLimit = .ok ([], []) := rfl

/-- A complete frame passes the type check and decrypts to what its ciphertext opens to,
whatever lies behind it. -/
theorem decryptFrame_frame (r : σ) {ct : Bytes} (hct : msgTypeFieldSize + ct.length < 2 ^ 32)
    (after : Bytes) : decryptFrame c r (frame ct) after = (c.Decrypt r [] ct).mapError .error := by
  have htype := (frame_header ct [] hct).2
  rw [List.append_nil] at htype
  have hmsg : (frame ct).drop MsgLenFieldSize = typeField ++ ct := by
    rw [frame, List.append_assoc,
      List.drop_left' (show (LittleEndian.PutUint32 _).length = MsgLenFieldSize from rfl)]
  -- the message holds the whole type field, so neither slice expression leaves it
  have hlen : msgTypeFieldSize ≤ (typeField ++ ct).length := by
    rw [List.length_append, length_typeField]
    omega
  have hct' : (typeField ++ ct).drop msgTypeFieldSize = ct := List.drop_left' length_typeField
  have htake : LittleEndian.Uint32 ((typeField ++ ct).take msgTypeFieldSize) =
      altsRecordMsgType := by
    rw [← hmsg, show msgTypeFieldSize = 4 from rfl, LittleEndian.Uint32_take, htype]
  unfold decryptFrame
  simp only [hmsg, sliceTo_of_le hlen, sliceFrom_of_le hlen, hct', Except.ok_bind]
  rw [htake, if_neg (by decide)]

/-! ## The read loop -/

@[simp] theorem data_growProtected (s : Slice UInt8) : (growProtected s).data = s.data := by
  unfold growProtected
  split <;> rfl

/-- Moving the incomplete frame to the front of `protected`. -/
theorem compact_protectedBuf {p : conn σ} (h : p.nextFrame.length ≤ p.protectedBuf.data.length) :
    (compact p).protectedBuf.data = p.nextFrame ∧ (compact p).nextFrame = p.nextFrame := by
  have hdata : (compact p).protectedBuf.data = p.nextFrame := by
    simp only [compact, Slice.data_take, Slice.data_copyFrom]
    exact take_copy_of_length_le h
  exact ⟨hdata, hdata⟩

/-- The growth loop ends with the next frame: it keeps reading while the frame is incomplete,
and what is left after the frame is in `nextFrame` and on the network. -/
theorem readFrame_complete {F rest : Bytes} (hF : IsFrame F) :
    ∀ (p : conn σ), p.protectedBuf.data ++ p.Conn.incoming.flatten = F ++ rest →
      p.protectedBuf.data.length < F.length →
      ∃ p', readFrame p = (.ok F, p') ∧
        p'.nextFrame ++ p'.Conn.incoming.flatten = rest ∧
        p'.nextFrame.length ≤ p'.protectedBuf.data.length ∧ p'.crypto = p.crypto ∧
        p'.buf = p.buf := by
  intro p
  -- induction on what the network still holds, which every read makes smaller
  induction h : Io.remaining p.Conn.incoming using Nat.strong_induction_on generalizing p with
  | _ n ih =>
  intro hwire hpart
  rw [readFrame]
  split
  · -- the network is done, yet the frame is not complete
    rename_i err herr
    rw [Io.readChunk_eq_error herr, List.flatten_nil, List.append_nil] at hwire
    have := congrArg List.length hwire
    rw [List.length_append] at this
    omega
  · rename_i got incoming hread
    have hgot := Io.append_of_readChunk hread
    have hpre : p.protectedBuf.data ++ got <+: F ++ rest :=
      ⟨incoming.flatten, by rw [List.append_assoc, hgot, hwire]⟩
    simp only [Slice.data_extend, data_growProtected]
    rw [ParseFramedMsg_of_frame_start hF hpre]
    by_cases hfit : F.length ≤ (p.protectedBuf.data ++ got).length
    · -- the frame is complete
      have hne : ¬ F.length = 0 := by
        have := hF.1
        unfold MsgLenFieldSize at this
        omega
      simp only [if_pos hfit, hne, if_false]
      refine ⟨_, rfl, ?_, ?_, rfl, rfl⟩
      · rw [← List.drop_append_of_le_length hfit, List.append_assoc, hgot, hwire, List.drop_left]
      · simp only [Slice.data_extend, data_growProtected, List.length_drop]
        omega
    · -- not yet: read again
      simp only [if_neg hfit, List.length_nil, if_true]
      have hless : Io.remaining incoming < n := by
        rw [← h]
        exact Io.remaining_lt_of_readChunk (readSize_growProtected_pos _) hread
      exact ih _ hless _ rfl (by simp only [Slice.data_extend, data_growProtected,
        List.append_assoc, hgot, hwire]) (by simp only [Slice.data_extend, data_growProtected]; omega)

/-- With no frame left, the growth loop drains the network and fails with its `io.EOF`. -/
theorem readFrame_eof :
    ∀ (p : conn σ), p.protectedBuf.data ++ p.Conn.incoming.flatten = [] → p.nextFrame = [] →
      ∃ err p', readFrame p = (.error err, p') ∧ p'.Conn.incoming = [] ∧ p'.nextFrame = [] ∧
        p'.crypto = p.crypto ∧ p'.buf = p.buf := by
  intro p
  induction h : Io.remaining p.Conn.incoming using Nat.strong_induction_on generalizing p with
  | _ n ih =>
  intro hwire hnext
  rw [readFrame]
  split
  · rename_i err herr
    exact ⟨err, _, rfl, Io.readChunk_eq_error herr, hnext, rfl, rfl⟩
  · rename_i got incoming hread
    have hgot := Io.append_of_readChunk hread
    obtain ⟨hdata, hrest⟩ := List.append_eq_nil_iff.mp hwire
    rw [← hgot] at hrest
    obtain ⟨rfl, hrest⟩ := List.append_eq_nil_iff.mp hrest
    -- an empty chunk: nothing to parse, read again
    simp only [Slice.data_extend, data_growProtected, hdata, List.append_nil, ParseFramedMsg_nil,
      List.length_nil, if_true]
    have hless : Io.remaining incoming < n := by
      rw [← h]
      exact Io.remaining_lt_of_readChunk (readSize_growProtected_pos _) hread
    exact ih _ hless _ rfl (by simp only [Slice.data_extend, data_growProtected, hdata, hrest,
      List.append_nil]) rfl

/-! ## The reader refines an in-order channel -/

/-- The connection `p` still has the plaintext `s` to deliver: after `buf`, `s` is what the
frames in `nextFrame` and on the network open to, in order, from `p`'s counters. -/
def Pending (c : ALTSRecordCrypto σ) (p : conn σ) (s : Bytes) : Prop :=
  ∃ cts ps, Opens c p.crypto cts ps ∧
    p.nextFrame ++ p.Conn.incoming.flatten = (cts.map frame).flatten ∧
    p.buf ++ ps.flatten = s ∧
    List.Forall₂ (fun q ct => q ≠ [] ∧ (frame ct).length ≤ altsRecordDefaultLength) ps cts ∧
    p.nextFrame.length ≤ p.protectedBuf.data.length

/-- A `Read` with an empty `buf` and a next frame: it returns the front of the frame's
plaintext and keeps the rest in `buf`. -/
theorem Read_frame {p : conn σ} {ct W q : Bytes} {r₁ : σ} (hbuf : p.buf = [])
    (hwire : p.nextFrame ++ p.Conn.incoming.flatten = frame ct ++ W)
    (hct : (frame ct).length ≤ altsRecordDefaultLength)
    (hnext : p.nextFrame.length ≤ p.protectedBuf.data.length)
    (hdec : c.Decrypt p.crypto [] ct = .ok (q, r₁)) (k : Nat) :
    ∃ p', Read c p k = (.ok (q.take k), p') ∧ p'.buf = q.drop k ∧ p'.crypto = r₁ ∧
      p'.nextFrame ++ p'.Conn.incoming.flatten = W ∧
      p'.nextFrame.length ≤ p'.protectedBuf.data.length := by
  have hsmall : msgTypeFieldSize + ct.length < 2 ^ 32 := by
    rw [length_frame] at hct
    unfold altsRecordDefaultLength MsgLenFieldSize at hct
    omega
  have hne : ¬ (frame ct).length = 0 := by
    rw [length_frame]
    unfold MsgLenFieldSize
    omega
  have hpre : p.nextFrame <+: frame ct ++ W := ⟨_, hwire⟩
  unfold Read
  rw [if_pos (by rw [hbuf]; rfl), ParseFramedMsg_of_frame_start (isFrame_frame hct) hpre]
  by_cases hfit : (frame ct).length ≤ p.nextFrame.length
  · -- the whole frame was already buffered
    simp only [if_pos hfit, hne, if_false, decryptFrame_frame _ hsmall, hdec, Except.mapError_ok']
    refine ⟨_, rfl, rfl, rfl, ?_, ?_⟩
    · rw [← List.drop_append_of_le_length hfit, hwire, List.drop_left]
    · simp only [List.length_drop]
      omega
  · -- the frame moves to the front of `protected` and the loop reads the rest of it
    simp only [if_neg hfit, List.length_nil, if_true]
    obtain ⟨hdata, -⟩ := compact_protectedBuf (p := { p with nextFrame := p.nextFrame }) hnext
    obtain ⟨p', hread, hrest, hnext', hcrypto, -⟩ := readFrame_complete (isFrame_frame hct)
      (compact { p with nextFrame := p.nextFrame }) (by rw [hdata]; exact hwire)
      (by rw [hdata]; omega)
    have hcrypto' : p'.crypto = p.crypto := hcrypto
    simp only [hread, hcrypto', decryptFrame_frame _ hsmall, hdec, Except.mapError_ok']
    exact ⟨_, rfl, rfl, rfl, hrest, hnext'⟩

/-- What is left after the first `len(t)` bytes, when `t` is the front of `l`. -/
theorem drop_length_take_append {α : Type} (l m : List α) (k : Nat) :
    (l ++ m).drop (l.take k).length = l.drop k ++ m := by
  rw [List.length_take, List.drop_append_of_le_length (Nat.min_le_right _ _)]
  by_cases hk : k ≤ l.length
  · rw [Nat.min_eq_left hk]
  · rw [Nat.min_eq_right (by omega), List.drop_length, List.drop_of_length_le (by omega)]

/-- A read from a pending connection returns a nonempty front of what is pending, at most the
buffer's size, and leaves the rest pending. -/
theorem read_front {p : conn σ} {s : Bytes} (k : Nat) (h : Pending c p s) (hs : s ≠ []) :
    ∃ t p', Read c p k = (.ok t, p') ∧ t <+: s ∧ t.length ≤ k ∧ (0 < k → t ≠ []) ∧
      Pending c p' (s.drop t.length) := by
  obtain ⟨cts, ps, hopen, hwire, hbufs, hframes, hnext⟩ := h
  by_cases hbuf : p.buf = []
  · -- the next frame is decrypted
    rw [hbuf, List.nil_append] at hbufs
    cases hopen with
    | nil => exact absurd hbufs.symm hs
    | @cons _ r₁ ct q cts ps hdec hopen =>
      obtain ⟨⟨hq, hct⟩, hframes⟩ := List.forall₂_cons.mp hframes
      rw [List.map_cons, List.flatten_cons] at hwire
      obtain ⟨p', hread, hbuf', hcrypto, hwire', hnext'⟩ := Read_frame hbuf hwire hct hnext hdec k
      refine ⟨q.take k, p', hread, ?_, List.length_take_le _ _, ?_, ?_⟩
      · rw [← hbufs, List.flatten_cons]
        exact (List.take_prefix k q).trans (List.prefix_append _ _)
      · intro hk
        rw [ne_eq, List.take_eq_nil_iff, not_or]
        exact ⟨by omega, hq⟩
      · refine ⟨cts, ps, hcrypto ▸ hopen, hwire', ?_, hframes, hnext'⟩
        rw [hbuf', ← hbufs, List.flatten_cons, drop_length_take_append]
  · -- bytes of the last frame are still buffered
    have hread : Read c p k = copyOut p k := by
      unfold Read
      rw [if_neg (by rw [List.length_eq_zero_iff]; exact hbuf)]
    refine ⟨p.buf.take k, _, hread, ?_, List.length_take_le _ _, ?_, ?_⟩
    · rw [← hbufs]
      exact (List.take_prefix k p.buf).trans (List.prefix_append _ _)
    · intro hk
      rw [ne_eq, List.take_eq_nil_iff, not_or]
      exact ⟨by omega, hbuf⟩
    · exact ⟨cts, ps, hopen, hwire, by rw [← hbufs, drop_length_take_append], hframes, hnext⟩

/-- Once nothing is pending, a read fails, and still nothing is pending. -/
theorem read_end {p : conn σ} (k : Nat) (h : Pending c p []) :
    ∃ err p', Read c p k = (.error err, p') ∧ Pending c p' [] := by
  obtain ⟨cts, ps, hopen, hwire, hbufs, hframes, hnext⟩ := h
  obtain ⟨hbuf, hps⟩ := List.append_eq_nil_iff.mp hbufs
  -- no plaintext left means no frame left
  have hps' : ps = [] := by
    rw [List.flatten_eq_nil_iff] at hps
    cases hframes with
    | nil => rfl
    | cons hq _ => exact absurd (hps _ List.mem_cons_self) hq.1
  rw [← hopen.eq_nil_iff] at hps'
  subst hps'
  obtain ⟨hnf, hin⟩ := List.append_eq_nil_iff.mp hwire
  have hcompact := compact_protectedBuf (p := { p with nextFrame := [] }) (by simp)
  obtain ⟨err, p', hread, hin', hnf', -, hbuf'⟩ := readFrame_eof
    (compact { p with nextFrame := [] }) (by rw [hcompact.1]; exact hin) hcompact.2
  refine ⟨.error err, p', ?_, [], [], .nil _, by rw [hnf', hin']; rfl, ?_, .nil,
    by rw [hnf']; simp⟩
  · unfold Read
    rw [if_pos (by rw [hbuf]; rfl), hnf, ParseFramedMsg_nil]
    simp only [List.length_nil, if_true, hread]
  · rw [hbuf', List.flatten_nil, List.append_nil]
    exact hbuf

/-- **The reading end of a record connection is an in-order channel** of what is pending. -/
theorem reads_deliver : Channel.Delivers (Read c) (Pending c) :=
  ⟨read_front, read_end⟩

/-! ## Writing on one side, reading on the other -/

/-- A frame `Write` emits for the payload `q`, as the peer sees it: the length field counts the
type field and the ciphertext, the type is `altsRecordMsgType`, the payload is nonempty and at
most `payloadLengthLimit` bytes, and the frame at most `altsRecordDefaultLength`. -/
def EmittedFrame (c : ALTSRecordCrypto σ) (q ct : Bytes) : Prop :=
  (LittleEndian.Uint32 (frame ct)).toNat = msgTypeFieldSize + ct.length ∧
    LittleEndian.Uint32 ((frame ct).drop MsgLenFieldSize) = altsRecordMsgType ∧
    0 < q.length ∧ q.length ≤ payloadLengthLimit c ∧ (frame ct).length ≤ altsRecordDefaultLength

/-- A sealed payload of `1..payloadLengthLimit` bytes makes such a frame. -/
theorem emittedFrame_of_length {q ct : Bytes} (hq : 0 < q.length ∧ q.length ≤ payloadLengthLimit c)
    (hct : ct.length = q.length + c.EncryptionOverhead) : EmittedFrame c q ct := by
  have hsum := payloadLengthLimit_add_overhead c
  have hframe : (frame ct).length ≤ altsRecordDefaultLength := by
    rw [length_frame, hct]
    unfold overhead at hsum
    omega
  have hsmall : msgTypeFieldSize + ct.length < 2 ^ 32 := by
    rw [length_frame] at hframe
    unfold altsRecordDefaultLength MsgLenFieldSize at hframe
    omega
  have hheader := frame_header ct [] hsmall
  rw [List.append_nil] at hheader
  exact ⟨hheader.1, hheader.2, hq.1, hq.2, hframe⟩

/-- **ALTS record round trip.**  Let `bs` be written with successful `Write` calls on one end,
and let the other end, with counters in step and nothing decrypted yet, receive what was sent,
in any chunks, after what it already holds in `protected`.  The writes emit well-formed frames
of the payloads of `bs`, and whatever the sizes of the peer's reads, the bytes its successful
reads return are a prefix of `bs` joined, and all of it once it has read into a nonempty buffer
as many times as there are bytes. -/
theorem record_round_trip {InStep : σ → σ → Prop} (hc : CorrectAead c InStep)
    {w w' r : conn σ} {bs : List Bytes} (hw : writeAll c w bs = (none, w'))
    (hstep : InStep w.crypto r.crypto) (hbuf : r.buf = [])
    (hwire : r.nextFrame ++ r.Conn.incoming.flatten =
      w'.Conn.out.sent.drop w.Conn.out.sent.length)
    (hnext : r.nextFrame.length ≤ r.protectedBuf.data.length) (ks : List Nat) :
    (∃ ps cts, ps.flatten = bs.flatten ∧
      w'.Conn.out.sent = w.Conn.out.sent ++ (cts.map frame).flatten ∧
      Opens c r.crypto cts ps ∧ List.Forall₂ (EmittedFrame c) ps cts) ∧
    Channel.delivered (Channel.run (Read c) r ks).1 <+: bs.flatten ∧
    (bs.flatten.length ≤ ks.length → (∀ k ∈ ks, 0 < k) →
      Channel.delivered (Channel.run (Read c) r ks).1 = bs.flatten) := by
  obtain ⟨ps, cts, hps, hpay, hseals, hsent, -⟩ := writeAll_spec hc.seals bs hw
  have hopen := hseals.opens hc hstep
  -- every frame on the wire is well formed
  have hframes : List.Forall₂ (EmittedFrame c) ps cts :=
    ((List.forall₂_and_left ps cts).mpr ⟨hpay, hseals.length_eq hc.seals⟩).imp
      fun _ _ h => emittedFrame_of_length h.1 h.2
  -- so the peer starts with all of `bs` pending
  have hpending : Pending c r bs.flatten := by
    refine ⟨cts, ps, hopen, ?_, by rw [hbuf, List.nil_append, hps], ?_, hnext⟩
    · rw [hwire, hsent, List.drop_left]
    · exact hframes.imp fun q _ h => ⟨List.ne_nil_of_length_pos h.2.2.1, h.2.2.2.2⟩
  exact ⟨⟨ps, cts, hps, hsent, hopen, hframes⟩, Channel.delivered_prefix reads_deliver ks hpending,
    fun hlen hpos => Channel.delivered_eq reads_deliver ks hpending hlen hpos⟩

/-- The tag of `counterTagCrypto`: the counter's low byte, then zeros. -/
def counterTag (n : Nat) : Bytes := UInt8.ofNat n :: List.replicate 15 0

/-- A record protocol to run the round trip on: the sealed text is the plaintext and a 16-byte
tag carrying the counter, and `Decrypt` accepts only the tag of its own counter. -/
def counterTagCrypto : ALTSRecordCrypto Nat where
  Encrypt s dst plaintext := .ok (dst ++ (plaintext ++ counterTag s), s + 1)
  EncryptionOverhead := 16
  Decrypt r dst ciphertext :=
    if ciphertext.drop (ciphertext.length - 16) = counterTag r then
      .ok (dst ++ ciphertext.take (ciphertext.length - 16), r + 1)
    else .error "message authentication failed"
  overhead_lt := by decide

theorem counterTagCrypto_correct : CorrectAead counterTagCrypto Eq where
  seals := by
    intro s dst plaintext out s' h
    simp only [counterTagCrypto, Except.ok.injEq, Prod.mk.injEq] at h
    obtain ⟨rfl, rfl⟩ := h
    exact ⟨_, rfl, by simp [counterTag, counterTagCrypto]⟩
  opens := by
    intro s r s' dst p ct hsr h
    subst hsr
    simp only [counterTagCrypto, Except.ok.injEq, Prod.mk.injEq, List.append_cancel_left_eq] at h
    obtain ⟨rfl, rfl⟩ := h
    have htag : (counterTag s).length = 16 := by simp [counterTag]
    exact ⟨s + 1, by simp [counterTagCrypto, htag], rfl⟩

theorem record_round_trip_counterTag :
    let w : conn Nat := ⟨⟨[], ⟨[], none⟩⟩, 0, [], ⟨[], 0, le_rfl, [], rfl⟩, [], []⟩
    let w' := (writeAll counterTagCrypto w [[1, 2, 3]]).2
    let r : conn Nat := ⟨⟨[w'.Conn.out.sent], ⟨[], none⟩⟩, 0, [],
      ⟨[], 8191, Nat.zero_le _, List.replicate 8191 0, List.length_replicate ..⟩, [], []⟩
    CorrectAead counterTagCrypto Eq ∧ writeAll counterTagCrypto w [[1, 2, 3]] = (none, w') ∧
      r.nextFrame ++ r.Conn.incoming.flatten = w'.Conn.out.sent.drop w.Conn.out.sent.length ∧
      Channel.delivered (Channel.run (Read counterTagCrypto) r [2, 2, 2]).1 = [1, 2, 3] := by
  intro w w' r
  have hw : writeAll counterTagCrypto w [[1, 2, 3]] = (none, w') := rfl
  have hwire : r.nextFrame ++ r.Conn.incoming.flatten =
      w'.Conn.out.sent.drop w.Conn.out.sent.length := by
    simp [r, w]
  exact ⟨counterTagCrypto_correct, hw, hwire,
    (record_round_trip (r := r) counterTagCrypto_correct hw rfl rfl hwire le_rfl [2, 2, 2]).2.2
      (by decide) (by decide)⟩

end Alts
end GrpcGo
