import GrpcGo.Alts.RecordWrite

/-!
# What a failed `Write` reports

`Write` returns, with the error of a failed `Conn.Write`, the count
`partialBStart + nn / altsRecordDefaultLength * payloadLengthLimit`: the plaintext before the piece
that failed and the payloads of the frames wholly within the `nn` bytes the connection took.
That count never runs past what reached the peer (`Write_eq_error`): every frame of a piece but
the last is full, `altsRecordDefaultLength` bytes for `payloadLengthLimit` bytes of `b`, so
`nn / altsRecordDefaultLength` frames fit in the `nn` bytes (`full_payloads_le`), and every
piece before the failing one is `partialBSize` long and sent whole.

A failed `Encrypt` is the other way a `Write` fails: it happens before its piece is handed to
the connection, and `Write` then reports `len(b)`.
-/

namespace GrpcGo
namespace Alts

open GoStd GoStd.Binary

variable {σ : Type} {c : ALTSRecordCrypto σ}

/-! ## The frame loop -/

/-- A frame loop that fails stops at a failed `Encrypt`, before anything is sent. -/
theorem writeFrames_eq_error :
    ∀ (bufs : List Bytes) {p p' : conn σ} {idx idx' : Nat} {err : String},
      writeFrames c p idx bufs = (some err, p', idx') →
        (∃ s dst pl, c.Encrypt s dst pl = .error err) ∧ p'.Conn = p.Conn
  | [], _, _, _, _, _, h => by simp [writeFrames] at h
  | buf :: bufs, p, p', idx, idx', err, h => by
    simp only [writeFrames] at h
    split at h
    · rename_i herr
      cases h
      exact ⟨⟨_, _, _, herr⟩, rfl⟩
    · obtain ⟨he, hconn⟩ := writeFrames_eq_error bufs h
      exact ⟨he, hconn⟩

/-! ## Full frames -/

/-- The frame of a full payload fills `altsRecordDefaultLength`. -/
theorem length_frame_of_full {pl ct : Bytes} (hct : ct.length = pl.length + c.EncryptionOverhead)
    (hpl : pl.length = payloadLengthLimit c) : (frame ct).length = altsRecordDefaultLength := by
  rw [length_frame, hct, hpl, ← payloadLengthLimit_add_overhead c, overhead]
  omega

/-- The frames of full payloads take `altsRecordDefaultLength` bytes each. -/
theorem length_frames_of_full : ∀ {ps cts : List Bytes},
    List.Forall₂ (fun pl ct => ct.length = pl.length + c.EncryptionOverhead) ps cts →
    (∀ pl ∈ ps, pl.length = payloadLengthLimit c) →
      (cts.map frame).flatten.length = ps.length * altsRecordDefaultLength
  | [], [], .nil, _ => rfl
  | pl :: ps, ct :: cts, .cons hct h, hfull => by
    rw [List.map_cons, List.flatten_cons, List.length_append,
      length_frame_of_full hct (hfull pl List.mem_cons_self),
      length_frames_of_full h (fun pl' h' => hfull pl' (List.mem_cons_of_mem _ h')),
      List.length_cons, Nat.succ_mul, Nat.add_comm]

/-- The frames of the first `j` ciphertexts begin the frames of all of them. -/
theorem frames_take_prefix (cts : List Bytes) (j : Nat) :
    ((cts.take j).map frame).flatten <+: (cts.map frame).flatten := by
  conv => rhs; rw [← List.take_append_drop j cts]
  rw [List.map_append, List.flatten_append]
  exact List.prefix_append _ _

/-- The payloads of the frames wholly within the first `nn` bytes of a piece's frames:
`nn / altsRecordDefaultLength` full payloads fit in the piece. -/
theorem full_payloads_le {q : Bytes} {nn : Nat}
    (hnn : nn < frameBytes c (chunks (payloadLengthLimit c) q)) :
    nn / altsRecordDefaultLength * payloadLengthLimit c ≤ q.length := by
  have hL := payloadLengthLimit_pos c
  have hsum := payloadLengthLimit_add_overhead c
  rw [frameBytes_chunks] at hnn
  by_contra hlt
  rw [Nat.not_le] at hlt
  -- then the piece has at most `nn / altsRecordDefaultLength` frames
  have hr : (q.length + payloadLengthLimit c - 1) / payloadLengthLimit c ≤
      nn / altsRecordDefaultLength := by
    have : (q.length + payloadLengthLimit c - 1) / payloadLengthLimit c <
        nn / altsRecordDefaultLength + 1 :=
      (Nat.div_lt_iff_lt_mul hL).mpr (by rw [Nat.succ_mul]; omega)
    omega
  -- and those frames, full, already take more than the piece's bytes
  have hj : nn / altsRecordDefaultLength * payloadLengthLimit c +
      nn / altsRecordDefaultLength * overhead c ≤ nn := by
    rw [← Nat.mul_add, hsum]
    exact Nat.div_mul_le_self nn _
  have hov := Nat.mul_le_mul_right (overhead c) hr
  omega

/-! ## The loop over the pieces -/

/-- A piece whose `Conn.Write` fails after `nn` bytes: the frames of its first
`nn / altsRecordDefaultLength` payloads reached the connection, and they hold the payloads the
count adds. -/
theorem piece_eq_error (hc : SealsWithTag c) {q : Bytes} {cts : List Bytes} {s s' : σ} {nn : Nat}
    (hs : Seals c s (chunks (payloadLengthLimit c) q) cts s')
    (hnn : nn < frameBytes c (chunks (payloadLengthLimit c) q)) :
    ((cts.take (nn / altsRecordDefaultLength)).map frame).flatten <+:
        (cts.map frame).flatten.take nn ∧
      (((chunks (payloadLengthLimit c) q).take (nn / altsRecordDefaultLength)).flatten).length =
        nn / altsRecordDefaultLength * payloadLengthLimit c := by
  have hL := payloadLengthLimit_pos c
  have hfit := full_payloads_le hnn
  have hflat := flatten_take_chunks hL q _ hfit
  have hlen : (((chunks (payloadLengthLimit c) q).take (nn / altsRecordDefaultLength)).flatten).length =
      nn / altsRecordDefaultLength * payloadLengthLimit c := by
    rw [hflat, List.length_take]
    omega
  refine ⟨?_, hlen⟩
  -- the first `j` payloads are full, so their frames take `j * altsRecordDefaultLength ≤ nn` bytes
  have hcount : ((chunks (payloadLengthLimit c) q).take (nn / altsRecordDefaultLength)).length =
      nn / altsRecordDefaultLength := by
    have hchunks : nn / altsRecordDefaultLength ≤ (chunks (payloadLengthLimit c) q).length := by
      rw [length_chunks hL, Nat.le_div_iff_mul_le hL]
      omega
    rw [List.length_take, Nat.min_eq_left hchunks]
  have hframes := length_frames_of_full
    (List.forall₂_take (nn / altsRecordDefaultLength) (hs.length_eq hc))
    (length_of_mem_take_chunks hL q _ hfit)
  rw [hcount] at hframes
  have hle : ((cts.take (nn / altsRecordDefaultLength)).map frame).flatten.length ≤ nn := by
    rw [hframes]
    exact Nat.div_mul_le_self nn _
  obtain ⟨rest, hrest⟩ := frames_take_prefix cts (nn / altsRecordDefaultLength)
  rw [← hrest, List.take_append, List.take_of_length_le hle]
  exact List.prefix_append _ _

/-- What a failed `Conn.Write` leaves: the payloads `ps` of the pieces handed to the connection,
sealed in turn into `cts`, the bytes `S` the connection took, and a count of `j` payloads whose
frames are wholly in `S` and hold at least the reported count past `partialBStart`. -/
def ReportsWritten (c : ALTSRecordCrypto σ) (partials : List Bytes) (p p' : conn σ)
    (partialBStart m : Nat) : Prop :=
  ∃ ps cts j S, ps.flatten <+: partials.flatten ∧ Seals c p.crypto ps cts p'.crypto ∧
    p'.Conn.out.sent = p.Conn.out.sent ++ S ∧ ((cts.take j).map frame).flatten <+: S ∧
    m ≤ partialBStart + ((ps.take j).flatten).length

/-- A piece sent whole before the failing one. -/
theorem ReportsWritten.cons (hc : SealsWithTag c) {q : Bytes} {partials : List Bytes}
    {p p₁ p' : conn σ} {partialBStart m : Nat} (cts : List Bytes)
    (hs : Seals c p.crypto (chunks (payloadLengthLimit c) q) cts p₁.crypto)
    (hsent : p₁.Conn.out.sent = p.Conn.out.sent ++ (cts.map frame).flatten)
    (h : ReportsWritten c partials p₁ p' (partialBStart + q.length) m) :
    ReportsWritten c (q :: partials) p p' partialBStart m := by
  have hL := payloadLengthLimit_pos c
  obtain ⟨ps, cts', j, S, hps, hs', hS, hpre, hm⟩ := h
  have hlen : cts.length = (chunks (payloadLengthLimit c) q).length :=
    ((hs.length_eq hc).length_eq).symm
  refine ⟨chunks (payloadLengthLimit c) q ++ ps, cts ++ cts', cts.length + j,
    (cts.map frame).flatten ++ S, ?_, hs.append hs', ?_, ?_, ?_⟩
  · rw [List.flatten_append, flatten_chunks hL, List.flatten_cons]
    exact (List.prefix_append_right_inj q).mpr hps
  · rw [hS, hsent, List.append_assoc]
  · rw [List.take_append, List.take_of_length_le (by omega), Nat.add_sub_cancel_left,
      List.map_append, List.flatten_append]
    exact (List.prefix_append_right_inj _).mpr hpre
  · rw [List.take_append, List.take_of_length_le (by omega), hlen, Nat.add_sub_cancel_left,
      List.flatten_append, List.length_append, flatten_chunks hL]
    omega

/-- **The loop over the pieces, when it fails.**  Either a `Conn.Write` failed, and the count is
at most the plaintext whose frames reached the connection; or an `Encrypt` failed, and the count
is `len(b)`. -/
theorem writePartials_eq_error (hc : SealsWithTag c) {n partialBSize : Nat} :
    ∀ (partials : List Bytes) {partialBStart : Nat} {p p' : conn σ} {m : Nat} {err : String},
      (∀ q ∈ partials, frameBytes c (chunks (payloadLengthLimit c) q) ≤ p.writeBuf.length) →
      (∀ q ∈ partials.dropLast, q.length = partialBSize) →
      writePartials c n partialBSize partialBStart partials p = ((m, some err), p') →
      ReportsWritten c partials p p' partialBStart m ∨
        (m = n ∧ ∃ s dst pl, c.Encrypt s dst pl = .error err)
  | [], _, _, _, _, _, _, _, h => by simp [writePartials] at h
  | q :: partials, partialBStart, p, p', m, err, hfit, hfull, h => by
    simp only [writePartials] at h
    split at h
    · -- an `Encrypt` failed in this piece
      rename_i err' p₁ idx hframes
      simp only [Prod.mk.injEq, Option.some.injEq] at h
      obtain ⟨⟨rfl, rfl⟩, -⟩ := h
      exact .inr ⟨rfl, (writeFrames_eq_error _ hframes).1⟩
    · rename_i p₁ idx hframes
      obtain ⟨cts, hs, hidx, htake, hlen, hconn⟩ :=
        writeFrames_spec hc _ (by rw [Nat.zero_add]; exact hfit q List.mem_cons_self) hframes
      rw [Nat.zero_add] at hidx
      rw [List.take_zero, List.nil_append] at htake
      rcases hw : p₁.Conn.out.write (p₁.writeBuf.take idx) with ⟨⟨nn, _ | err'⟩, out⟩
      · -- the piece went out whole: the failure is in a later piece
        rw [hw] at h
        obtain ⟨-, hsent⟩ := Io.Sink.write_eq_ok hw
        have hne : partials ≠ [] := by
          rintro rfl
          simp [writePartials] at h
        have hq : q.length = partialBSize :=
          hfull q (by rw [List.dropLast_cons_of_ne_nil hne]; exact List.mem_cons_self)
        rcases writePartials_eq_error hc partials
            (fun q' hq' => by simpa only [hlen] using hfit q' (List.mem_cons_of_mem _ hq'))
            (fun q' hq' => hfull q' (by
              rw [List.dropLast_cons_of_ne_nil hne]
              exact List.mem_cons_of_mem _ hq')) h with h' | h'
        · left
          rw [← hq] at h'
          refine ReportsWritten.cons hc cts ?_ ?_ h'
          · exact hs
          · simp only at hsent ⊢
            rw [hsent, htake, hconn]
        · exact .inr h'
      · -- this piece's `Conn.Write` failed after `nn` bytes
        rw [hw] at h
        simp only [Prod.mk.injEq, Option.some.injEq] at h
        obtain ⟨⟨rfl, rfl⟩, rfl⟩ := h
        obtain ⟨hlt, hsent⟩ := Io.Sink.write_eq_error hw
        -- the frames of the piece fill `writeBuf` up to `idx`
        have hidx' : (p₁.writeBuf.take idx).length = frameBytes c (chunks (payloadLengthLimit c) q) := by
          have := hfit q List.mem_cons_self
          rw [List.length_take, hlen, hidx]
          omega
        obtain ⟨hpre, hpay⟩ := piece_eq_error hc hs (hidx' ▸ hlt)
        left
        refine ⟨chunks (payloadLengthLimit c) q, cts, nn / altsRecordDefaultLength,
          (cts.map frame).flatten.take nn, ?_, hs, ?_, hpre, ?_⟩
        · rw [flatten_chunks (payloadLengthLimit_pos c), List.flatten_cons]
          exact List.prefix_append _ _
        · simp only at hsent ⊢
          rw [hsent, htake, hconn]
        · show partialBStart + nn / altsRecordDefaultLength * payloadLengthLimit c ≤ _
          rw [hpay]

/-! ## `Write` -/

/-- **A failed `Write`.**  Either a `Conn.Write` failed, and the count is at most the plaintext
of a prefix of `b` whose frames all reached the connection, or an `Encrypt` failed, and the
count is `len(b)`. -/
theorem Write_eq_error (hc : SealsWithTag c) {p p' : conn σ} {b : Bytes} {m : Nat} {err : String}
    (h : Write c p b = ((m, some err), p')) :
    (∃ ps cts j S, ps.flatten <+: b ∧ Seals c p.crypto ps cts p'.crypto ∧
        p'.Conn.out.sent = p.Conn.out.sent ++ S ∧ ((cts.take j).map frame).flatten <+: S ∧
        m ≤ ((ps.take j).flatten).length) ∨
      (m = b.length ∧ ∃ s dst pl, c.Encrypt s dst pl = .error err) := by
  have hL := payloadLengthLimit_pos c
  unfold Write at h
  dsimp only at h
  split at h
  · -- the large-write path: full pieces of `altsWriteBufferMaxSize / altsRecordDefaultLength` frames
    have hpiece : 0 < altsWriteBufferMaxSize / altsRecordDefaultLength * payloadLengthLimit c :=
      Nat.mul_pos (by decide) hL
    obtain ⟨hsize, hcrypto, hconn⟩ := writeBuf_resize p altsWriteBufferMaxSize
    rcases writePartials_eq_error hc _ (fun q hq =>
        (frameBytes_le_of_piece (mem_chunks hpiece hq).2).trans hsize)
        (length_of_mem_dropLast_chunks hpiece b) h with
      ⟨ps, cts, j, S, hps, hs, hS, hpre, hm⟩ | h'
    · rw [flatten_chunks hpiece] at hps
      rw [hcrypto] at hs
      rw [hconn] at hS
      exact .inl ⟨ps, cts, j, S, hps, hs, hS, hpre, by omega⟩
    · exact .inr h'
  · -- one piece, `b` itself
    obtain ⟨hsize, hcrypto, hconn⟩ := writeBuf_resize p
      (b.length + (b.length + payloadLengthLimit c - 1) / payloadLengthLimit c * overhead c)
    by_cases hb : b = []
    · subst hb
      simp [writePartials] at h
    · have hone : chunks b.length b = [b] := by
        rw [chunks_of_ne_nil (List.length_pos_iff.mpr hb) hb, List.take_length, List.drop_length,
          chunks_nil]
      rw [hone] at h
      rcases writePartials_eq_error hc _ (fun q hq => by
          rw [List.mem_singleton] at hq
          rw [hq, frameBytes_chunks]
          exact hsize) (fun q hq => by simp at hq) h with
        ⟨ps, cts, j, S, hps, hs, hS, hpre, hm⟩ | h'
      · rw [List.flatten_singleton] at hps
        rw [hcrypto] at hs
        rw [hconn] at hS
        exact .inl ⟨ps, cts, j, S, hps, hs, hS, hpre, by omega⟩
      · exact .inr h'

/-- **`Write` never reports more than it wrote.**  A `Write` that succeeds reports `len(b)`.  One
that fails in `Conn.Write` reports at most the plaintext of a prefix of `b` whose frames all
reached the connection; the one other way to fail, a failed `Encrypt`, reports `len(b)`. -/
theorem Write_never_overreports (hc : SealsWithTag c) {p p' : conn σ} {b : Bytes} {m : Nat}
    {err : Option String} (h : Write c p b = ((m, err), p')) :
    (err = none → m = b.length) ∧
      ∀ e, err = some e →
        (∃ ps cts j S, ps.flatten <+: b ∧ Seals c p.crypto ps cts p'.crypto ∧
          p'.Conn.out.sent = p.Conn.out.sent ++ S ∧ ((cts.take j).map frame).flatten <+: S ∧
          m ≤ ((ps.take j).flatten).length) ∨
        (m = b.length ∧ ∃ s dst pl, c.Encrypt s dst pl = .error e) := by
  refine ⟨fun hn => ?_, fun e he => ?_⟩
  · subst hn
    exact (Write_spec hc h).1
  · subst he
    exact Write_eq_error hc h

/-- A record protocol that seals by appending a one-byte tag. -/
def tagOne : ALTSRecordCrypto Nat where
  Encrypt s dst plaintext := .ok (dst ++ plaintext ++ [0], s + 1)
  EncryptionOverhead := 1
  Decrypt s dst ciphertext := .ok (dst ++ ciphertext.dropLast, s + 1)
  overhead_lt := by decide

theorem sealsWithTag_tagOne : SealsWithTag tagOne := by
  intro s dst plaintext out s' h
  simp only [tagOne, Except.ok.injEq, Prod.mk.injEq] at h
  obtain ⟨rfl, -⟩ := h
  exact ⟨plaintext ++ [0], by simp, by simp [tagOne]⟩

/-- Two bytes to a connection that takes three: the frame is eleven bytes, the write fails, and
no payload is counted. -/
theorem Write_never_overreports_closed_pipe :
    ∃ p' : conn Nat,
      Write tagOne ⟨⟨[], ⟨[], some 3⟩⟩, 0, [], ⟨[], 0, le_refl _, [], rfl⟩, [], []⟩ [1, 2] =
        ((0, some Io.ErrClosedPipe), p') ∧
      ((some Io.ErrClosedPipe = none → 0 = [(1 : UInt8), 2].length) ∧
        ∀ e, some Io.ErrClosedPipe = some e →
          (∃ ps cts j S, ps.flatten <+: [1, 2] ∧ Seals tagOne 0 ps cts p'.crypto ∧
            p'.Conn.out.sent = [] ++ S ∧ ((cts.take j).map frame).flatten <+: S ∧
            0 ≤ ((ps.take j).flatten).length) ∨
          (0 = [(1 : UInt8), 2].length ∧ ∃ s dst pl, tagOne.Encrypt s dst pl = .error e)) := by
  obtain ⟨p', hw⟩ : ∃ p' : conn Nat,
      Write tagOne ⟨⟨[], ⟨[], some 3⟩⟩, 0, [], ⟨[], 0, le_refl _, [], rfl⟩, [], []⟩ [1, 2] =
        ((0, some Io.ErrClosedPipe), p') := ⟨_, rfl⟩
  exact ⟨p', hw, Write_never_overreports sealsWithTag_tagOne hw⟩

end Alts
end GrpcGo
