import GrpcGo.Lib.GoIo
import GrpcGo.Lib.GoStrings

/-!
# Reading a stream's data (`internal/transport`)

`Stream.Read` fills the whole buffer or fails: it is `io.ReadFull` over the stream's
`transportReader`, which reads the DATA received for the stream from its `recvBufferReader` and
remembers the first error.  The received data is a list of chunks (each DATA frame's payload,
delivered over as many reads as it takes) followed by `io.EOF`.  The window updates that
`transportReader` and `Stream.Read` send are flow control and are not part of this model.

`ReadFull_of_le` and `ReadFull_of_lt` say what `io.ReadFull` returns whatever the chunks:
the next `size` bytes when there are that many, and otherwise all that is left with `io.EOF`
(nothing was left) or `io.ErrUnexpectedEOF` (something was).
-/

namespace GrpcGo
namespace Transport

open GoStd

/-- `transportReader` over its `recvBufferReader`: the chunks still to be read, then `io.EOF`,
and the error of its last failed read. -/
structure transportReader where
  reader : List Bytes
  er : Option String

/-- `t.Read(p)` with `len(p) = k`. -/
def transportReader.Read (t : transportReader) (k : Nat) : Except String Bytes × transportReader :=
  match Io.readChunk k t.reader with
  | .error err => (.error err, { t with er := some err })
  | .ok (n, reader) => (.ok n, { t with reader })

theorem transportReader.Read_eq_ok {t t' : transportReader} {k : Nat} {n : Bytes}
    (h : t.Read k = (.ok n, t')) : Io.readChunk k t.reader = .ok (n, t'.reader) ∧ t'.er = t.er := by
  unfold transportReader.Read at h
  split at h
  · cases h
  · rename_i n' reader hread
    simp only [Prod.mk.injEq, Except.ok.injEq] at h
    obtain ⟨rfl, rfl⟩ := h
    exact ⟨hread, rfl⟩

theorem transportReader.Read_eq_error {t t' : transportReader} {k : Nat} {err : String}
    (h : t.Read k = (.error err, t')) : t.reader = [] ∧ err = Io.EOF ∧ t' = { t with er := some err } := by
  unfold transportReader.Read at h
  split at h
  · rename_i err' hread
    have hnil := Io.readChunk_eq_error hread
    rw [hnil, Io.readChunk_nil] at hread
    simp only [Prod.mk.injEq, Except.error.injEq] at h hread
    obtain ⟨rfl, rfl⟩ := h
    exact ⟨hnil, hread.symm, rfl⟩
  · cases h

/-- The loop `for n < min && err == nil` of `io.ReadAtLeast(t, buf, min)`, from the bytes `buf`
read so far: the bytes read, the last error and the reader after. -/
def readAtLeastLoop (min : Nat) (buf : Bytes) (t : transportReader) :
    Bytes × Option String × transportReader :=
  if _ : buf.length < min then
    match h : t.Read (min - buf.length) with
    | (.error err, t') => (buf, some err, t')
    | (.ok nn, t') => readAtLeastLoop min (buf ++ nn) t'
  else (buf, none, t)
termination_by Io.remaining t.reader
decreasing_by
  exact (Io.remaining_lt_of_readChunk (by omega) (transportReader.Read_eq_ok h).1)

/-- `io.ReadFull(t, buf)` with `len(buf) = size`: the bytes read, the error, and the reader. -/
def ReadFull (t : transportReader) (size : Nat) : (Bytes × Option String) × transportReader :=
  let (buf, err, t) := readAtLeastLoop size [] t
  if buf.length ≥ size then ((buf, none), t)
  else if buf.length > 0 ∧ err = some Io.EOF then ((buf, some Io.ErrUnexpectedEOF), t)
  else ((buf, err), t)

/-- A `Stream` as its reader sees it. -/
structure Stream where
  trReader : transportReader

/-- `s.Read(p)` with `len(p) = size`: once the reader has failed, its error again; otherwise
`io.ReadFull`. -/
def Stream.Read (s : Stream) (size : Nat) : (Bytes × Option String) × Stream :=
  match s.trReader.er with
  | some er => (([], some er), s)
  | none =>
    let (r, trReader) := ReadFull s.trReader size
    (r, ⟨trReader⟩)

/-! ## What `io.ReadFull` returns -/

/-- The read loop takes the next `min - len(buf)` bytes when they are there. -/
theorem readAtLeastLoop_of_le (min : Nat) :
    ∀ (buf : Bytes) (t : transportReader), min - buf.length ≤ t.reader.flatten.length →
      ∃ t', readAtLeastLoop min buf t =
          (buf ++ t.reader.flatten.take (min - buf.length), none, t') ∧
        t'.reader.flatten = t.reader.flatten.drop (min - buf.length) ∧ t'.er = t.er := by
  intro buf t
  -- induction on what the reader still holds
  induction h : Io.remaining t.reader using Nat.strong_induction_on generalizing buf t with
  | _ n ih =>
  intro hle
  rw [readAtLeastLoop]
  split
  · rename_i hbuf
    split
    · rename_i err t' hread
      -- nothing left would contradict `hle`
      obtain ⟨hnil, -, -⟩ := transportReader.Read_eq_error hread
      rw [hnil, List.flatten_nil, List.length_nil] at hle
      omega
    · rename_i nn t' hread
      obtain ⟨hchunk, her⟩ := transportReader.Read_eq_ok hread
      have hgot := Io.append_of_readChunk hchunk
      have hlen := Io.length_le_of_readChunk hchunk
      have hflat : t.reader.flatten.length = nn.length + t'.reader.flatten.length := by
        rw [← hgot, List.length_append]
      have hless : Io.remaining t'.reader < n := by
        rw [← h]
        exact Io.remaining_lt_of_readChunk (by omega) hchunk
      -- the bytes still wanted after `nn`
      have hk : min - (buf ++ nn).length = (min - buf.length) - nn.length := by
        rw [List.length_append]
        omega
      obtain ⟨t'', hloop, hrest, her'⟩ :=
        ih _ hless (buf ++ nn) t' rfl (by rw [hk]; omega)
      refine ⟨t'', ?_, ?_, her'.trans her⟩
      · rw [hloop, hk, ← hgot, List.take_append, List.take_of_length_le hlen, List.append_assoc]
      · rw [hrest, hk, ← hgot, List.drop_append, List.drop_of_length_le hlen, List.nil_append]
  · rename_i hbuf
    refine ⟨t, ?_, ?_, rfl⟩
    · rw [Nat.sub_eq_zero_of_le (by omega), List.take_zero, List.append_nil]
    · rw [Nat.sub_eq_zero_of_le (by omega), List.drop_zero]

/-- When fewer bytes are left, the read loop takes them all and stops at `io.EOF`. -/
theorem readAtLeastLoop_of_lt (min : Nat) :
    ∀ (buf : Bytes) (t : transportReader), t.reader.flatten.length < min - buf.length →
      ∃ t', readAtLeastLoop min buf t = (buf ++ t.reader.flatten, some Io.EOF, t') ∧
        t'.reader = [] ∧ t'.er = some Io.EOF := by
  intro buf t
  induction h : Io.remaining t.reader using Nat.strong_induction_on generalizing buf t with
  | _ n ih =>
  intro hlt
  rw [readAtLeastLoop, dif_pos (by omega)]
  split
  · rename_i err t' hread
    obtain ⟨hnil, herr, ht'⟩ := transportReader.Read_eq_error hread
    refine ⟨t', by rw [hnil, List.flatten_nil, List.append_nil, herr], ?_, ?_⟩
    · rw [ht']
      exact hnil
    · rw [ht', herr]
  · rename_i nn t' hread
    obtain ⟨hchunk, -⟩ := transportReader.Read_eq_ok hread
    have hgot := Io.append_of_readChunk hchunk
    have hless : Io.remaining t'.reader < n := by
      rw [← h]
      exact Io.remaining_lt_of_readChunk (by omega) hchunk
    have hlt' : t'.reader.flatten.length < min - (buf ++ nn).length := by
      have := congrArg List.length hgot
      rw [List.length_append] at this ⊢
      omega
    obtain ⟨t'', hloop, hnil, her⟩ := ih _ hless (buf ++ nn) t' rfl hlt'
    exact ⟨t'', by rw [hloop, List.append_assoc, hgot], hnil, her⟩

/-- `io.ReadFull` returns the next `size` bytes when there are that many. -/
theorem ReadFull_of_le {t : transportReader} {size : Nat} (h : size ≤ t.reader.flatten.length) :
    ∃ t', ReadFull t size = ((t.reader.flatten.take size, none), t') ∧
      t'.reader.flatten = t.reader.flatten.drop size ∧ t'.er = t.er := by
  obtain ⟨t', hloop, hrest, her⟩ :=
    readAtLeastLoop_of_le size [] t (by rw [List.length_nil, Nat.sub_zero]; exact h)
  refine ⟨t', ?_, by rw [hrest, List.length_nil, Nat.sub_zero], her⟩
  simp only [ReadFull, hloop, List.nil_append, List.length_nil, Nat.sub_zero, List.length_take]
  rw [if_pos (by omega)]

/-- Otherwise it returns what is left, with `io.EOF` if that is nothing and
`io.ErrUnexpectedEOF` if it is something. -/
theorem ReadFull_of_lt {t : transportReader} {size : Nat} (h : t.reader.flatten.length < size) :
    ∃ t', ReadFull t size = ((t.reader.flatten,
        some (if t.reader.flatten = [] then Io.EOF else Io.ErrUnexpectedEOF)), t') ∧
      t'.reader = [] ∧ t'.er = some Io.EOF := by
  obtain ⟨t', hloop, hnil, her⟩ :=
    readAtLeastLoop_of_lt size [] t (by rw [List.length_nil, Nat.sub_zero]; exact h)
  refine ⟨t', ?_, hnil, her⟩
  simp only [ReadFull, hloop, List.nil_append]
  rw [if_neg (by omega)]
  by_cases hs : t.reader.flatten = []
  · rw [if_neg (by rw [hs]; simp), if_pos hs]
  · rw [if_pos ⟨List.length_pos_iff.mpr hs, by simp⟩, if_neg hs]

end Transport
end GrpcGo
