import GrpcGo.Alts.Record

/-!
# What `Write` puts on the wire

`Write_spec`: a successful `Write c p b` cuts `b` into payloads of `1..payloadLengthLimit`
bytes, seals them in turn with the protocol's counters, and appends to what the connection has
sent the frames of the ciphertexts, in order.  The one assumption on the protocol is
`SealsWithTag`: `Encrypt` appends to `dst` a ciphertext as long as the plaintext and the tag,
which is what `EncryptionOverhead` reports.

On the way, `writeFrames_spec` shows that the frames of one piece are laid out end to end in
`writeBuf` and never run past it: `Write` sizes the buffer for the ceiling of the frame count,
and a piece of the large-write path has at most `altsWriteBufferMaxSize / altsRecordDefaultLength`
frames (`frameBytes_le_of_piece`).  So Go's in-place `Encrypt` never reallocates and no
`PutUint32` writes out of range.
-/

namespace GrpcGo
namespace Alts

open GoStd GoStd.Binary

variable {σ : Type}

/-! ## Frames -/

/-- The type field. -/
def typeField : Bytes := LittleEndian.PutUint32 altsRecordMsgType

/-- The frame of a ciphertext: the length field, the type field and the ciphertext. -/
def frame (ct : Bytes) : Bytes :=
  LittleEndian.PutUint32 (UInt32.ofNat (msgTypeFieldSize + ct.length)) ++ typeField ++ ct

@[simp] theorem length_typeField : typeField.length = msgTypeFieldSize := rfl

theorem length_frame (ct : Bytes) :
    (frame ct).length = MsgLenFieldSize + msgTypeFieldSize + ct.length := by
  simp only [frame, List.length_append, LittleEndian.length_PutUint32, length_typeField]
  rfl

/-- The header the peer reads: the length field counts the type field and the ciphertext, and
the type field is `altsRecordMsgType`. -/
theorem frame_header (ct rest : Bytes) (h : msgTypeFieldSize + ct.length < 2 ^ 32) :
    (LittleEndian.Uint32 (frame ct ++ rest)).toNat = msgTypeFieldSize + ct.length ∧
      LittleEndian.Uint32 ((frame ct ++ rest).drop MsgLenFieldSize) = altsRecordMsgType := by
  constructor
  · rw [frame, List.append_assoc, List.append_assoc, LittleEndian.Uint32_PutUint32,
      UInt32.toNat_ofNat_of_lt' h]
  · rw [frame, List.append_assoc, List.append_assoc,
      List.drop_left' (show (LittleEndian.PutUint32 _).length = MsgLenFieldSize from rfl),
      typeField, LittleEndian.Uint32_PutUint32]

/-! ## The record protocol's sealing -/

/-- `Encrypt` appends to `dst` a ciphertext longer than the plaintext by `EncryptionOverhead`. -/
def SealsWithTag (c : ALTSRecordCrypto σ) : Prop :=
  ∀ {s : σ} {dst plaintext out : Bytes} {s' : σ}, c.Encrypt s dst plaintext = .ok (out, s') →
    ∃ ct, out = dst ++ ct ∧ ct.length = plaintext.length + c.EncryptionOverhead

/-- `Seals c s ps cts s'`: sealing the payloads `ps` in turn after the type field, from the
counters `s`, gives the ciphertexts `cts` and leaves the counters `s'`. -/
inductive Seals (c : ALTSRecordCrypto σ) : σ → List Bytes → List Bytes → σ → Prop
  | nil (s : σ) : Seals c s [] [] s
  | cons {s s₁ s₂ : σ} {p ct : Bytes} {ps cts : List Bytes} :
    c.Encrypt s typeField p = .ok (typeField ++ ct, s₁) → Seals c s₁ ps cts s₂ →
      Seals c s (p :: ps) (ct :: cts) s₂

variable {c : ALTSRecordCrypto σ}

theorem Seals.append {s s₁ s₂ : σ} {ps ps' cts cts' : List Bytes} :
    Seals c s ps cts s₁ → Seals c s₁ ps' cts' s₂ → Seals c s (ps ++ ps') (cts ++ cts') s₂
  | .nil _, h' => h'
  | .cons he h, h' => .cons he (h.append h')

/-- Each ciphertext is its payload and the tag. -/
theorem Seals.length_eq (hc : SealsWithTag c) {s s' : σ} {ps cts : List Bytes} :
    Seals c s ps cts s' →
      List.Forall₂ (fun p ct => ct.length = p.length + c.EncryptionOverhead) ps cts
  | .nil _ => .nil
  | .cons he h => by
    obtain ⟨ct', hct', hlen⟩ := hc he
    rw [← List.append_cancel_left hct'] at hlen
    exact .cons hlen (h.length_eq hc)

/-! ## The frames of one piece -/

/-- The bytes the frames of the payloads `bufs` take in `writeBuf`. -/
def frameBytes (c : ALTSRecordCrypto σ) (bufs : List Bytes) : Nat :=
  (bufs.map fun buf => buf.length + overhead c).sum

@[simp] theorem frameBytes_nil : frameBytes c [] = 0 := rfl

@[simp] theorem frameBytes_cons (buf : Bytes) (bufs : List Bytes) :
    frameBytes c (buf :: bufs) = buf.length + overhead c + frameBytes c bufs := by
  simp only [frameBytes, List.map_cons, List.sum_cons]

theorem frameBytes_eq (bufs : List Bytes) :
    frameBytes c bufs = bufs.flatten.length + bufs.length * overhead c := by
  induction bufs with
  | nil => simp
  | cons buf bufs ih =>
    rw [frameBytes_cons, ih, List.flatten_cons, List.length_append, List.length_cons]
    rw [Nat.succ_mul]
    omega

/-- Writing one frame at `writeBufIndex`: the type field, the sealed message over it, then the
length field in front of it. -/
theorem writeBuf_frame (wb ct : Bytes) (idx : Nat) (h : idx + (frame ct).length ≤ wb.length) :
    putAt (putAt (putAt wb (idx + MsgLenFieldSize) typeField) (idx + MsgLenFieldSize)
        (typeField ++ ct)) idx
        (LittleEndian.PutUint32 (UInt32.ofNat (typeField ++ ct).length)) =
      wb.take idx ++ frame ct ++ wb.drop (idx + (frame ct).length) := by
  have hlen : (frame ct).length = MsgLenFieldSize + (typeField ++ ct).length := by
    rw [length_frame, List.length_append, length_typeField, Nat.add_assoc]
  have hmsg : idx + MsgLenFieldSize + (typeField ++ ct).length ≤ wb.length := by omega
  have hfield : (typeField ++ ct).length = msgTypeFieldSize + ct.length := by
    rw [List.length_append, length_typeField]
  rw [putAt_putAt_of_length_le (by rw [List.length_append]; omega) hmsg]
  have hadj : putAt (putAt wb (idx + MsgLenFieldSize) (typeField ++ ct)) idx
      (LittleEndian.PutUint32 (UInt32.ofNat (typeField ++ ct).length)) =
      wb.take idx ++ LittleEndian.PutUint32 (UInt32.ofNat (typeField ++ ct).length) ++
        (typeField ++ ct) ++ wb.drop (idx + MsgLenFieldSize + (typeField ++ ct).length) :=
    @putAt_adjacent _ wb (LittleEndian.PutUint32 (UInt32.ofNat (typeField ++ ct).length))
      (typeField ++ ct) idx hmsg
  rw [hadj, hlen, ← Nat.add_assoc, frame, hfield, List.append_assoc (List.take idx wb),
    List.append_assoc (LittleEndian.PutUint32 _)]

/-- The frame loop of one piece lays the frames out end to end from `writeBufIndex`, within
`writeBuf` as long as they fit. -/
theorem writeFrames_spec (hc : SealsWithTag c) :
    ∀ (bufs : List Bytes) {p p' : conn σ} {idx idx' : Nat},
      idx + frameBytes c bufs ≤ p.writeBuf.length →
      writeFrames c p idx bufs = (none, p', idx') →
      ∃ cts, Seals c p.crypto bufs cts p'.crypto ∧ idx' = idx + frameBytes c bufs ∧
        p'.writeBuf.take idx' = p.writeBuf.take idx ++ (cts.map frame).flatten ∧
        p'.writeBuf.length = p.writeBuf.length ∧ p'.Conn = p.Conn
  | [], p, p', idx, idx', _, h => by
    simp only [writeFrames, Prod.mk.injEq] at h
    obtain ⟨-, rfl, rfl⟩ := h
    exact ⟨[], .nil _, rfl, by simp, rfl, rfl⟩
  | buf :: bufs, p, p', idx, idx', hfit, h => by
    rw [frameBytes_cons] at hfit
    have hover : MsgLenFieldSize + msgTypeFieldSize ≤ overhead c := by
      unfold overhead
      omega
    -- `dst` is the type field just written
    have hT : idx + MsgLenFieldSize + typeField.length ≤ p.writeBuf.length := by
      rw [length_typeField]
      omega
    have hdst : ((putAt p.writeBuf (idx + MsgLenFieldSize) typeField).drop
        (idx + MsgLenFieldSize)).take msgTypeFieldSize = typeField := by
      have hi : (p.writeBuf.take (idx + MsgLenFieldSize)).length = idx + MsgLenFieldSize := by
        rw [List.length_take]
        omega
      rw [putAt_of_le hT, List.append_assoc, List.drop_left' hi, List.take_left']
      rfl
    simp only [writeFrames] at h
    rw [show LittleEndian.PutUint32 altsRecordMsgType = typeField from rfl] at h
    rw [hdst] at h
    split at h
    · cases h
    · rename_i msg crypto henc
      obtain ⟨ct, rfl, hct⟩ := hc henc
      have hframe : (frame ct).length = buf.length + overhead c := by
        rw [length_frame, hct]
        unfold overhead
        omega
      obtain ⟨cts, hs, hidx, htake, hlen, hconn⟩ :=
        writeFrames_spec hc bufs (p := { p with writeBuf := _, crypto }) (by
          simp only [length_putAt]
          omega) h
      have hwb := writeBuf_frame p.writeBuf ct idx (by omega)
      have hprefix : (p.writeBuf.take idx ++ frame ct ++
          p.writeBuf.drop (idx + (frame ct).length)).take (idx + (frame ct).length) =
          p.writeBuf.take idx ++ frame ct := by
        have : (p.writeBuf.take idx ++ frame ct).length = idx + (frame ct).length := by
          rw [List.length_append, List.length_take]
          omega
        rw [List.take_left' this]
      refine ⟨ct :: cts, .cons henc hs, by rw [hidx, frameBytes_cons]; omega, ?_, ?_, hconn⟩
      · rw [htake]
        simp only
        rw [Nat.add_assoc, ← hframe, hwb, hprefix, List.map_cons, List.flatten_cons,
          List.append_assoc]
      · rw [hlen]
        simp only [length_putAt]

/-- The bytes of the frames of one piece. -/
theorem frameBytes_chunks (q : Bytes) :
    frameBytes c (chunks (payloadLengthLimit c) q) =
      q.length + (q.length + payloadLengthLimit c - 1) / payloadLengthLimit c * overhead c := by
  rw [frameBytes_eq, flatten_chunks (payloadLengthLimit_pos c),
    length_chunks (payloadLengthLimit_pos c)]

/-- A piece of the large-write path fills at most the largest write buffer. -/
theorem frameBytes_le_of_piece {q : Bytes}
    (hq : q.length ≤ altsWriteBufferMaxSize / altsRecordDefaultLength * payloadLengthLimit c) :
    frameBytes c (chunks (payloadLengthLimit c) q) ≤ altsWriteBufferMaxSize := by
  have hL := payloadLengthLimit_pos c
  have hsum := payloadLengthLimit_add_overhead c
  have h128 : altsWriteBufferMaxSize / altsRecordDefaultLength = 128 := rfl
  rw [h128] at hq
  -- at most 128 frames
  have hframes : (q.length + payloadLengthLimit c - 1) / payloadLengthLimit c ≤ 128 := by
    have : (q.length + payloadLengthLimit c - 1) / payloadLengthLimit c < 129 :=
      (Nat.div_lt_iff_lt_mul hL).mpr (by omega)
    omega
  calc frameBytes c (chunks (payloadLengthLimit c) q)
      = q.length + (q.length + payloadLengthLimit c - 1) / payloadLengthLimit c * overhead c :=
        frameBytes_chunks q
    _ ≤ 128 * payloadLengthLimit c + 128 * overhead c :=
        Nat.add_le_add hq (Nat.mul_le_mul_right _ hframes)
    _ = altsWriteBufferMaxSize := by
        rw [← Nat.mul_add, hsum]
        rfl

/-! ## `Write` -/

/-- The loop over the pieces: every piece's frames are sent, in order. -/
theorem writePartials_spec (hc : SealsWithTag c) {n partialBSize : Nat} :
    ∀ (partials : List Bytes) {partialBStart : Nat} {p p' : conn σ} {m : Nat},
      (∀ q ∈ partials, frameBytes c (chunks (payloadLengthLimit c) q) ≤ p.writeBuf.length) →
      writePartials c n partialBSize partialBStart partials p = ((m, none), p') →
      m = n ∧ ∃ cts, Seals c p.crypto (partials.flatMap (chunks (payloadLengthLimit c))) cts
          p'.crypto ∧
        p'.Conn.out.sent = p.Conn.out.sent ++ (cts.map frame).flatten ∧
        p'.Conn.incoming = p.Conn.incoming
  | [], _, p, p', m, _, h => by
    simp only [writePartials, Prod.mk.injEq] at h
    obtain ⟨⟨rfl, -⟩, rfl⟩ := h
    exact ⟨rfl, [], .nil _, by simp, rfl⟩
  | q :: partials, partialBStart, p, p', m, hfit, h => by
    simp only [writePartials] at h
    split at h
    · cases h
    · rename_i p₁ idx hframes
      obtain ⟨cts, hs, hidx, htake, hlen, hconn⟩ :=
        writeFrames_spec hc _ (by rw [Nat.zero_add]; exact hfit q List.mem_cons_self) hframes
      rcases hw : p₁.Conn.out.write (p₁.writeBuf.take idx) with ⟨⟨nn, _ | err⟩, out⟩
      · rw [hw] at h
        obtain ⟨-, hsent⟩ := Io.Sink.write_eq_ok hw
        obtain ⟨rfl, cts', hs', hsent', hin⟩ := writePartials_spec hc partials (by
          intro q' hq'
          simp only [hlen]
          exact hfit q' (List.mem_cons_of_mem _ hq')) h
        refine ⟨rfl, cts ++ cts', hs.append hs', ?_, ?_⟩
        · simp only at hsent'
          rw [hsent', hsent, htake, hconn, List.take_zero, List.nil_append, List.map_append,
            List.flatten_append, List.append_assoc]
        · simp only at hin
          rw [hin, hconn]
      · rw [hw] at h
        cases h

/-- The pieces of `b`, whatever their size, give the payloads of `b`. -/
theorem writePartials_payloads (hc : SealsWithTag c) {p p' : conn σ} {b : Bytes} {m : Nat}
    {partialBSize : Nat} (hb : (chunks partialBSize b).flatten = b)
    (hfit : ∀ q ∈ chunks partialBSize b,
      frameBytes c (chunks (payloadLengthLimit c) q) ≤ p.writeBuf.length)
    (h : writePartials c b.length partialBSize 0 (chunks partialBSize b) p = ((m, none), p')) :
    m = b.length ∧ ∃ ps cts, ps.flatten = b ∧
      (∀ q ∈ ps, 0 < q.length ∧ q.length ≤ payloadLengthLimit c) ∧
      Seals c p.crypto ps cts p'.crypto ∧
      p'.Conn.out.sent = p.Conn.out.sent ++ (cts.map frame).flatten ∧
      p'.Conn.incoming = p.Conn.incoming := by
  have hL := payloadLengthLimit_pos c
  obtain ⟨hm, cts, hs, hsent, hin⟩ := writePartials_spec hc _ hfit h
  refine ⟨hm, _, cts, ?_, ?_, hs, hsent, hin⟩
  · rw [flatten_flatMap_chunks hL, hb]
  · intro q hq
    obtain ⟨q', -, hq'⟩ := List.mem_flatMap.mp hq
    exact mem_chunks hL hq'

/-- The write buffer `Write` uses: `writeBuf`, or a new one of `size` bytes if it is shorter. -/
theorem writeBuf_resize (p : conn σ) (size : Nat) :
    let p₁ := if p.writeBuf.length < size then { p with writeBuf := List.replicate size 0 } else p
    size ≤ p₁.writeBuf.length ∧ p₁.crypto = p.crypto ∧ p₁.Conn = p.Conn := by
  split
  · exact ⟨(List.length_replicate ..).ge, rfl, rfl⟩
  · exact ⟨by omega, rfl, rfl⟩

/-- **What a successful `Write` sends**: the frames of the payloads of `b`, sealed in turn, each
payload of `1..payloadLengthLimit` bytes. -/
theorem Write_spec (hc : SealsWithTag c) {p p' : conn σ} {b : Bytes} {m : Nat}
    (h : Write c p b = ((m, none), p')) :
    m = b.length ∧ ∃ ps cts, ps.flatten = b ∧
      (∀ q ∈ ps, 0 < q.length ∧ q.length ≤ payloadLengthLimit c) ∧
      Seals c p.crypto ps cts p'.crypto ∧
      p'.Conn.out.sent = p.Conn.out.sent ++ (cts.map frame).flatten ∧
      p'.Conn.incoming = p.Conn.incoming := by
  have hL := payloadLengthLimit_pos c
  unfold Write at h
  dsimp only at h
  split at h
  · -- the large-write path: pieces of `altsWriteBufferMaxSize / altsRecordDefaultLength` frames
    have hpiece : 0 < altsWriteBufferMaxSize / altsRecordDefaultLength * payloadLengthLimit c :=
      Nat.mul_pos (by decide) hL
    obtain ⟨hsize, hcrypto, hconn⟩ := writeBuf_resize p altsWriteBufferMaxSize
    have := writePartials_payloads hc (flatten_chunks hpiece b) (fun q hq =>
      (frameBytes_le_of_piece (mem_chunks hpiece hq).2).trans hsize) h
    rwa [hcrypto, hconn] at this
  · -- one piece, `b` itself, in a buffer sized for all its frames
    obtain ⟨hsize, hcrypto, hconn⟩ := writeBuf_resize p
      (b.length + (b.length + payloadLengthLimit c - 1) / payloadLengthLimit c * overhead c)
    by_cases hb : b = []
    · subst hb
      simp only [writePartials, chunks_nil, Prod.mk.injEq, List.length_nil] at h hcrypto hconn
      obtain ⟨⟨rfl, -⟩, rfl⟩ := h
      refine ⟨rfl, [], [], rfl, by simp, ?_, ?_, ?_⟩
      · rw [hcrypto]
        exact .nil _
      · rw [hconn, List.map_nil, List.flatten_nil, List.append_nil]
      · rw [hconn]
    · have hone : chunks b.length b = [b] := by
        rw [chunks_of_ne_nil (List.length_pos_iff.mpr hb) hb, List.take_length, List.drop_length,
          chunks_nil]
      have := writePartials_payloads hc (by rw [hone, List.flatten_singleton])
        (fun q hq => by
          rw [hone, List.mem_singleton] at hq
          rw [hq, frameBytes_chunks]
          exact hsize) h
      rwa [hcrypto, hconn] at this

/-! ## A sequence of writes -/

/-- `Write` called with each of `bs` in turn, up to the first error. -/
def writeAll (c : ALTSRecordCrypto σ) : conn σ → List Bytes → Option String × conn σ
  | p, [] => (none, p)
  | p, b :: bs =>
    match Write c p b with
    | ((_, some err), p) => (some err, p)
    | ((_, none), p) => writeAll c p bs

/-- Successful writes send the frames of their payloads one after the other. -/
theorem writeAll_spec (hc : SealsWithTag c) :
    ∀ (bs : List Bytes) {p p' : conn σ}, writeAll c p bs = (none, p') →
      ∃ ps cts, ps.flatten = bs.flatten ∧
        (∀ q ∈ ps, 0 < q.length ∧ q.length ≤ payloadLengthLimit c) ∧
        Seals c p.crypto ps cts p'.crypto ∧
        p'.Conn.out.sent = p.Conn.out.sent ++ (cts.map frame).flatten ∧
        p'.Conn.incoming = p.Conn.incoming
  | [], p, p', h => by
    simp only [writeAll, Prod.mk.injEq] at h
    obtain ⟨-, rfl⟩ := h
    exact ⟨[], [], rfl, by simp, .nil _, by simp, rfl⟩
  | b :: bs, p, p', h => by
    rcases hw : Write c p b with ⟨⟨m, _ | err⟩, p₁⟩
    · simp only [writeAll, hw] at h
      obtain ⟨-, ps, cts, hps, hpay, hs, hsent, hin⟩ := Write_spec hc hw
      obtain ⟨ps', cts', hps', hpay', hs', hsent', hin'⟩ := writeAll_spec hc bs h
      refine ⟨ps ++ ps', cts ++ cts', ?_, ?_, hs.append hs', ?_, hin'.trans hin⟩
      · rw [List.flatten_append, hps, hps', List.flatten_cons]
      · intro q hq
        rcases List.mem_append.mp hq with hq | hq
        · exact hpay q hq
        · exact hpay' q hq
      · rw [hsent', hsent, List.map_append, List.flatten_append, List.append_assoc]
    · simp only [writeAll, hw, Prod.mk.injEq, reduceCtorEq, false_and] at h

end Alts
end GrpcGo
