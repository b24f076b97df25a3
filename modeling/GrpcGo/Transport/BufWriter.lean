import Mathlib

/-!
# The transport's buffered writer (`internal/transport/http_util.go`)

Every frame the transport writes goes through `bufWriter`: `Write` copies the bytes into a
buffer of `2 * batchSize` bytes and flushes it to the connection once it holds `batchSize`;
`Flush` hands what it holds to `conn.Write` and remembers the first error for good.  A
`batchSize` of zero (a negative `WriteBufferSize`, which `newFramer` raises to zero) writes
straight through.

The connection is what it has taken, `sent`, and what its next writes do, `outcomes`: a write
may take a prefix and fail.  `Write`'s loop runs until the bytes are all copied, so it is
given fuel, and a run out of fuel is a loop that has not ended.

* `conn_sent_written`: over any calls, the connection has taken a prefix of the bytes that
  `Write` reported written (each call's first `n`), in order; while no error is stored, it has
  taken all of them but the buffer's, which are fewer than `batchSize`.
* `Write_complete`: on a connection that does not fail, `Write` returns, having taken every
  byte, and a `Flush` after it leaves the connection with every byte reported.
* `Write_spins`: when the flush in the first turn of the loop fails and more than `2 * batchSize`
  bytes are still to be copied, the loop never ends: the buffer stays full, `copy` copies
  nothing, and `Flush` returns the stored error without emptying it.
-/

namespace GrpcGo
namespace Transport

variable {ε : Type}

/-- The connection under the writer: the bytes it has taken, and what its next writes do:
`some (n, e)` takes the first `n` bytes and fails with `e`; `none`, or no entry left, takes them
all. -/
structure netConn (ε : Type) where
  sent : List UInt8
  outcomes : List (Option (Nat × ε))
  deriving DecidableEq

/-- `conn.Write(b)`: the bytes taken, the error, and the connection after. -/
def netConn.Write (c : netConn ε) (b : List UInt8) : Nat × Option ε × netConn ε :=
  match c.outcomes with
  | some (n, e) :: rest => (min n b.length, some e, ⟨c.sent ++ b.take n, rest⟩)
  | none :: rest => (b.length, none, ⟨c.sent ++ b, rest⟩)
  | [] => (b.length, none, ⟨c.sent ++ b, []⟩)

/-- A connection none of whose writes fails. -/
def netConn.Reliable (c : netConn ε) : Prop := ∀ o ∈ c.outcomes, o = none

/-- What a write does: it takes a prefix of the bytes, and all of them when it does not fail;
a reliable connection stays so. -/
theorem netConn.Write_spec (c : netConn ε) (b : List UInt8) :
    (∃ k, (c.Write b).2.2.sent = c.sent ++ b.take k ∧ (c.Write b).1 = min k b.length) ∧
      ((c.Write b).2.1 = none → (c.Write b).2.2.sent = c.sent ++ b ∧ (c.Write b).1 = b.length) ∧
      (c.Reliable → (c.Write b).2.1 = none ∧ (c.Write b).2.2.Reliable) := by
  unfold netConn.Write netConn.Reliable
  rcases c with ⟨sent, _ | ⟨_ | ⟨n, e⟩, rest⟩⟩
  · exact ⟨⟨b.length, by simp⟩, fun _ => ⟨rfl, rfl⟩, fun _ => ⟨rfl, by simp⟩⟩
  · refine ⟨⟨b.length, by simp⟩, fun _ => ⟨rfl, rfl⟩, fun h => ⟨rfl, ?_⟩⟩
    intro o ho
    exact h o (List.mem_cons_of_mem _ ho)
  · refine ⟨⟨n, rfl, rfl⟩, fun h => absurd h (by simp), fun h => ?_⟩
    exact absurd (h _ List.mem_cons_self) (by simp)

theorem netConn.Write_of_fail {c : netConn ε} {k : Nat} {e : ε} {rest : List (Option (Nat × ε))}
    (h : c.outcomes = some (k, e) :: rest) (b : List UInt8) : (c.Write b).2.1 = some e := by
  unfold netConn.Write
  rw [h]

/-- `bufWriter`: `buf` is `w.buf[:w.offset]`, the bytes the buffer holds; its room is
`2 * batchSize`.  `onFlush` is left out: no writer of the transport sets it. -/
structure bufWriter (ε : Type) where
  buf : List UInt8
  batchSize : Nat
  conn : netConn ε
  err : Option ε
  deriving DecidableEq

/-- `newBufWriter(conn, batchSize)`. -/
def newBufWriter (conn : netConn ε) (batchSize : Nat) : bufWriter ε :=
  ⟨[], batchSize, conn, none⟩

/-- The writer of `newFramer(conn, writeBufferSize, ...)`: a negative size is zero. -/
def framerWriter (conn : netConn ε) (writeBufferSize : Int) : bufWriter ε :=
  newBufWriter conn (if writeBufferSize < 0 then 0 else writeBufferSize).toNat

namespace bufWriter

/-- `w.Flush()`. -/
def Flush (w : bufWriter ε) : Option ε × bufWriter ε :=
  match w.err with
  | some e => (some e, w)
  | none =>
    if w.buf.length = 0 then (none, w)
    else
      let (_, err, conn) := w.conn.Write w.buf
      (err, { w with conn, err, buf := [] })

/-- One turn of `Write`'s loop, with the error `err` so far: `copy(w.buf[w.offset:], b)` copies
as much as the buffer has room for, and a buffer holding `batchSize` is flushed.  The bytes
copied, the error, and the writer after. -/
def turn (w : bufWriter ε) (b : List UInt8) (err : Option ε) : Nat × Option ε × bufWriter ε :=
  let nn := min (2 * w.batchSize - w.buf.length) b.length
  let w := { w with buf := w.buf ++ b.take nn }
  let (err, w) := if w.buf.length ≥ w.batchSize then w.Flush else (err, w)
  (nn, err, w)

/-- The loop of `w.Write(b)`, at most `fuel` times round, with the bytes `n` and the error `err`
so far; `none` while it is still going. -/
def writeLoop : Nat → bufWriter ε → List UInt8 → Nat → Option ε →
    Option (Nat × Option ε × bufWriter ε)
  | _, w, [], n, err => some (n, err, w)
  | 0, _, _ :: _, _, _ => none
  | fuel + 1, w, b@(_ :: _), n, err =>
    let (nn, err, w) := turn w b err
    writeLoop fuel w (b.drop nn) (n + nn) err

/-- `w.Write(b)`, its loop given `fuel` turns: the bytes written and the error. -/
def Write (fuel : Nat) (w : bufWriter ε) (b : List UInt8) : Option (Nat × Option ε × bufWriter ε) :=
  match w.err with
  | some e => some (0, some e, w)
  | none =>
    if w.batchSize = 0 then
      let (n, err, conn) := w.conn.Write b
      some (n, err, { w with conn })
    else writeLoop fuel w b 0 none

theorem Write_of_err {w : bufWriter ε} {e : ε} (fuel : Nat) (b : List UInt8)
    (h : w.err = some e) : w.Write fuel b = some (0, some e, w) := by
  unfold Write
  rw [h]

/-- With no buffer, `Write` is the connection's. -/
theorem Write_of_zero {w : bufWriter ε} (fuel : Nat) (b : List UInt8) (h : w.err = none)
    (hzero : w.batchSize = 0) :
    w.Write fuel b = some ((w.conn.Write b).1, (w.conn.Write b).2.1,
      { w with conn := (w.conn.Write b).2.2 }) := by
  unfold Write
  rw [h]
  exact if_pos hzero

theorem Write_of_pos {w : bufWriter ε} (fuel : Nat) (b : List UInt8) (h : w.err = none)
    (hpos : 0 < w.batchSize) : w.Write fuel b = writeLoop fuel w b 0 none := by
  unfold Write
  rw [h]
  exact if_neg (Nat.pos_iff_ne_zero.mp hpos)

/-! ## Flush -/

@[simp] theorem Flush_batchSize (w : bufWriter ε) : w.Flush.2.batchSize = w.batchSize := by
  unfold Flush
  split
  · rfl
  · split_ifs <;> rfl

theorem Flush_of_err {w : bufWriter ε} {e : ε} (herr : w.err = some e) : w.Flush = (some e, w) := by
  unfold Flush
  rw [herr]

/-- `Flush` of a buffer that holds something, with no error stored, is a write of it. -/
theorem Flush_of_nonempty {w : bufWriter ε} (herr : w.err = none) (hbuf : w.buf ≠ []) :
    w.Flush = ((w.conn.Write w.buf).2.1,
      { w with conn := (w.conn.Write w.buf).2.2, err := (w.conn.Write w.buf).2.1, buf := [] }) := by
  unfold Flush
  rw [herr]
  exact if_neg (by simpa using hbuf)

/-- What `Flush` does: with an error stored, nothing; with an empty buffer, nothing; otherwise the
connection takes a prefix of the buffer, all of it unless the write fails, and the buffer is
emptied. -/
theorem Flush_spec (w : bufWriter ε) :
    (w.err.isSome ∨ w.buf = []) ∧ w.Flush.2 = w ∧ w.Flush.1 = w.err ∨
      w.err = none ∧ w.Flush.2.buf = [] ∧ w.Flush.2.err = w.Flush.1 ∧
        (∃ k, w.Flush.2.conn.sent = w.conn.sent ++ w.buf.take k) ∧
        (w.Flush.1 = none → w.Flush.2.conn.sent = w.conn.sent ++ w.buf) ∧
        (w.conn.Reliable → w.Flush.1 = none ∧ w.Flush.2.conn.Reliable) := by
  obtain ⟨⟨k, hk, -⟩, hok, hrel⟩ := w.conn.Write_spec w.buf
  unfold Flush
  rcases herr : w.err with _ | e
  · by_cases hbuf : w.buf.length = 0
    · exact .inl ⟨.inr (List.length_eq_zero_iff.mp hbuf), by simp [hbuf], by simp [hbuf]⟩
    · rw [if_neg hbuf]
      exact .inr ⟨rfl, rfl, rfl, ⟨k, hk⟩, fun h => (hok h).1, hrel⟩
  · exact .inl ⟨.inl rfl, rfl, rfl⟩

/-! ## The loop -/

variable (w : bufWriter ε) (b : List UInt8) (err : Option ε)

@[simp] theorem turn_fst : (turn w b err).1 = min (2 * w.batchSize - w.buf.length) b.length := rfl

theorem turn_snd : (turn w b err).2 =
    if (w.buf ++ b.take (min (2 * w.batchSize - w.buf.length) b.length)).length ≥ w.batchSize then
      { w with buf := w.buf ++ b.take (min (2 * w.batchSize - w.buf.length) b.length) }.Flush
    else (err, { w with buf := w.buf ++ b.take (min (2 * w.batchSize - w.buf.length) b.length) }) :=
  rfl

@[simp] theorem turn_batchSize : (turn w b err).2.2.batchSize = w.batchSize := by
  rw [turn_snd]
  split_ifs <;> simp

@[simp] theorem writeLoop_nil (fuel n : Nat) : writeLoop fuel w [] n err = some (n, err, w) := by
  cases fuel <;> rfl

theorem writeLoop_succ (fuel n : Nat) (hb : b ≠ []) :
    writeLoop (fuel + 1) w b n err =
      writeLoop fuel (turn w b err).2.2 (b.drop (turn w b err).1) (n + (turn w b err).1)
        (turn w b err).2.1 := by
  obtain ⟨x, b, rfl⟩ := List.exists_cons_of_ne_nil hb
  rfl

/-! ## What the connection takes -/

/-- What a writer keeps, with `log` the bytes written so far: the buffer within its room, the
connection's bytes a prefix of the log, and, while no error is stored, the connection's bytes and
the buffer's together the whole log, with the buffer below `batchSize` or empty. -/
structure Inv (log : List UInt8) (w : bufWriter ε) : Prop where
  room : w.buf.length ≤ 2 * w.batchSize
  sent_isPrefix : w.conn.sent <+: log
  exact : w.err = none → w.conn.sent ++ w.buf = log ∧ (w.buf = [] ∨ w.buf.length < w.batchSize)

theorem inv_newBufWriter (conn : netConn ε) (batchSize : Nat) :
    Inv conn.sent (newBufWriter conn batchSize) :=
  ⟨by simp [newBufWriter], List.prefix_refl _, fun _ => ⟨by simp [newBufWriter], .inl rfl⟩⟩

/-- **`Flush` restores the invariant** from a buffer of any length within its room: the
connection takes a prefix of the buffer, which follows its bytes in the log, and all of it unless
the write fails. -/
theorem inv_Flush {log : List UInt8} {w : bufWriter ε} (hroom : w.buf.length ≤ 2 * w.batchSize)
    (hpre : w.conn.sent <+: log) (hlog : w.err = none → w.conn.sent ++ w.buf = log) :
    Inv log w.Flush.2 := by
  rcases w.Flush_spec with ⟨hnil, hw, -⟩ | ⟨herr, hbuf, herr', ⟨k, hk⟩, hok, -⟩
  · rw [hw]
    -- nothing was written: the error was stored already, or the buffer was empty
    refine ⟨hroom, hpre, fun herr => ⟨hlog herr, .inl ?_⟩⟩
    simpa [herr] using hnil
  · refine ⟨by simp [hbuf], ?_, fun hnone => ⟨?_, .inl hbuf⟩⟩
    · rw [hk, ← hlog herr]
      exact List.prefix_append_right_inj _ |>.mpr (List.take_prefix _ _)
    · rw [hbuf, List.append_nil, hok (herr' ▸ hnone), hlog herr]

theorem Inv.Flush {log : List UInt8} {w : bufWriter ε} (h : Inv log w) : Inv log w.Flush.2 :=
  inv_Flush h.room h.sent_isPrefix fun herr => (h.exact herr).1

/-- **A turn of the loop keeps the invariant**, the log growing by the bytes it copies: the
copy fits the room, and a buffer that reaches `batchSize` is flushed. -/
theorem Inv.turn {log : List UInt8} {w : bufWriter ε} (h : Inv log w) (b : List UInt8)
    (err : Option ε) : Inv (log ++ b.take (turn w b err).1) (turn w b err).2.2 := by
  rw [turn_fst, turn_snd]
  set nn := min (2 * w.batchSize - w.buf.length) b.length
  have hroom : (w.buf ++ b.take nn).length ≤ 2 * w.batchSize := by
    have := h.room
    simp only [nn, List.length_append, List.length_take]
    omega
  have hpre : w.conn.sent <+: log ++ b.take nn := h.sent_isPrefix.trans (List.prefix_append _ _)
  have hlog : w.err = none → w.conn.sent ++ (w.buf ++ b.take nn) = log ++ b.take nn := by
    intro herr
    rw [← List.append_assoc, (h.exact herr).1]
  split_ifs with hfull
  · exact inv_Flush hroom hpre hlog
  · exact ⟨hroom, hpre, fun herr => ⟨hlog herr, .inr (by dsimp only; omega)⟩⟩

/-- **The loop keeps the invariant**: when it ends, the log has grown by the first bytes of `b`,
as many as the loop counts. -/
theorem Inv.writeLoop : ∀ (fuel : Nat) {log : List UInt8} {w w' : bufWriter ε} {b : List UInt8}
    {n n' : Nat} {err err' : Option ε}, Inv log w →
    writeLoop fuel w b n err = some (n', err', w') → ∃ k, n' = n + k ∧ Inv (log ++ b.take k) w'
  | fuel, log, w, w', [], n, n', err, err', h, hloop => by
    rw [writeLoop_nil] at hloop
    cases hloop
    exact ⟨0, rfl, by simpa using h⟩
  | 0, _, _, _, _ :: _, _, _, _, _, _, hloop => by cases hloop
  | fuel + 1, log, w, w', x :: b, n, n', err, err', h, hloop => by
    rw [writeLoop_succ _ _ _ _ _ (List.cons_ne_nil x b)] at hloop
    -- the turn copies `nn` bytes, and the rest of the loop the next `k`
    obtain ⟨k, hk, hinv⟩ := Inv.writeLoop fuel (h.turn (x :: b) err) hloop
    refine ⟨(bufWriter.turn w (x :: b) err).1 + k, by omega, ?_⟩
    rwa [List.append_assoc, ← List.take_add] at hinv

/-- **`Write` keeps the invariant**, the log growing by the first `n` bytes of `b`, `n` what it
returns: with an error stored nothing is written; with no buffer the connection takes them. -/
theorem Inv.Write {log : List UInt8} {w w' : bufWriter ε} {fuel n : Nat} {b : List UInt8}
    {err : Option ε} (h : Inv log w) (hw : w.Write fuel b = some (n, err, w')) :
    Inv (log ++ b.take n) w' := by
  rcases herr : w.err with _ | e
  · rcases Nat.eq_zero_or_pos w.batchSize with hzero | hpos
    · -- straight through: the connection takes what it returns
      rw [Write_of_zero fuel b herr hzero] at hw
      cases hw
      obtain ⟨⟨k, hk, hn⟩, -, -⟩ := w.conn.Write_spec b
      have hbuf : w.buf = [] := by
        have := h.room
        simpa [hzero] using this
      have hlog : w.conn.sent = log := by simpa [hbuf] using (h.exact herr).1
      have htake : b.take (w.conn.Write b).1 = b.take k := by
        rw [hn, ← List.take_eq_take_min]
      refine ⟨by simp [hbuf], ?_, fun _ => ⟨?_, .inl hbuf⟩⟩
      · dsimp only
        rw [hk, htake, hlog]
      · dsimp only
        rw [hbuf, List.append_nil, hk, htake, hlog]
    · rw [Write_of_pos fuel b herr hpos] at hw
      obtain ⟨k, rfl, hinv⟩ := Inv.writeLoop fuel h hw
      simpa using hinv
  · rw [Write_of_err fuel b herr] at hw
    cases hw
    simpa using h

/-- The writers a transport's writer can be in after some calls, with the bytes those calls
reported written: the connection's own before the writer, and then each `Write`'s first `n`. -/
inductive Reachable : List UInt8 → bufWriter ε → Prop
  | init (conn : netConn ε) (batchSize : Nat) : Reachable conn.sent (newBufWriter conn batchSize)
  | write {log : List UInt8} {w w' : bufWriter ε} {fuel n : Nat} {b : List UInt8}
      {err : Option ε} : Reachable log w → w.Write fuel b = some (n, err, w') →
      Reachable (log ++ b.take n) w'
  | flush {log : List UInt8} {w : bufWriter ε} : Reachable log w → Reachable log w.Flush.2

theorem Inv.reachable {log : List UInt8} {w : bufWriter ε} (h : Reachable log w) : Inv log w := by
  induction h with
  | init conn batchSize => exact inv_newBufWriter conn batchSize
  | write _ hw ih => exact ih.Write hw
  | flush _ ih => exact ih.Flush

/-- **The connection takes the bytes written, in order**: after any calls, it has a prefix of
the bytes `Write` reported written, whatever its writes did; while no error is stored, it has
them all but the buffer's, fewer than `batchSize`. -/
theorem conn_sent_written {log : List UInt8} {w : bufWriter ε} (h : Reachable log w) :
    w.conn.sent <+: log ∧
      (w.err = none → w.conn.sent ++ w.buf = log ∧ (w.buf = [] ∨ w.buf.length < w.batchSize)) :=
  ⟨(Inv.reachable h).sent_isPrefix, (Inv.reachable h).exact⟩

/-- Twenty bytes to write. -/
def sampleBytes : List UInt8 := (List.range 20).map UInt8.ofNat

/-- A connection whose second write takes three bytes and fails. -/
def brokenConn : netConn String := ⟨[], [none, some (3, "broken pipe")]⟩

/-- Ten bytes and then six through a writer of batch size four on `brokenConn`: the first flush
hands eight bytes over, the second fails after three of the next eight. -/
def brokenWriter : bufWriter String := ⟨[], 4, ⟨sampleBytes.take 11, []⟩, some "broken pipe"⟩

theorem conn_sent_written_sample : Reachable (sampleBytes.take 16) brokenWriter ∧
    (brokenWriter.conn.sent <+: sampleBytes.take 16 ∧
      (brokenWriter.err = none → brokenWriter.conn.sent ++ brokenWriter.buf = sampleBytes.take 16 ∧
        (brokenWriter.buf = [] ∨ brokenWriter.buf.length < brokenWriter.batchSize))) :=
  have h : Reachable (sampleBytes.take 16) brokenWriter :=
    @Reachable.write String (sampleBytes.take 10) ⟨(sampleBytes.drop 8).take 2, 4,
      ⟨sampleBytes.take 8, [some (3, "broken pipe")]⟩, none⟩ _ 10 6 ((sampleBytes.drop 10).take 6)
      (some "broken pipe")
      (@Reachable.write String [] (newBufWriter brokenConn 4) _ 10 10 (sampleBytes.take 10) none
        (Reachable.init brokenConn 4) rfl) rfl
  ⟨h, conn_sent_written h⟩

/-- On a reliable connection, `Flush` with no error stored hands the whole buffer over. -/
theorem Flush_reliable {w : bufWriter ε} (herr : w.err = none) (hrel : w.conn.Reliable) :
    w.Flush.1 = none ∧ w.Flush.2.err = none ∧ w.Flush.2.conn.Reliable ∧ w.Flush.2.buf = [] ∧
      w.Flush.2.conn.sent = w.conn.sent ++ w.buf := by
  rcases w.Flush_spec with ⟨hnil, hw, h1⟩ | ⟨-, hbuf, herr', -, hok, hrel'⟩
  · have hbuf : w.buf = [] := by simpa [herr] using hnil
    rw [hw, h1]
    exact ⟨herr, herr, hrel, hbuf, by simp [hbuf]⟩
  · obtain ⟨h1, h2⟩ := hrel' hrel
    exact ⟨h1, herr'.trans h1, h2, hbuf, hok h1⟩

/-! ## When `Write` returns -/

/-- On a reliable connection, a turn from a buffer below `batchSize` copies at least one byte of
a non-empty `b`, stores no error, and leaves the buffer below `batchSize`; the connection's bytes
and the buffer's together grow by the copy. -/
theorem turn_reliable {w : bufWriter ε} {b : List UInt8} (hpos : 0 < w.batchSize)
    (herr : w.err = none) (hrel : w.conn.Reliable) (hbuf : w.buf.length < w.batchSize)
    (hb : b ≠ []) :
    0 < (turn w b none).1 ∧ (turn w b none).2.1 = none ∧ (turn w b none).2.2.err = none ∧
      (turn w b none).2.2.conn.Reliable ∧ (turn w b none).2.2.buf.length < w.batchSize ∧
      (turn w b none).2.2.conn.sent ++ (turn w b none).2.2.buf =
        w.conn.sent ++ w.buf ++ b.take (turn w b none).1 := by
  have hlen : 0 < b.length := List.length_pos_iff.mpr hb
  refine ⟨by rw [turn_fst]; omega, ?_⟩
  rw [turn_fst, turn_snd]
  set w₁ : bufWriter ε := { w with buf := w.buf ++ b.take (min (2 * w.batchSize - w.buf.length)
    b.length) }
  split_ifs with hfull
  · -- the buffer reached `batchSize`: all of it goes to the connection
    obtain ⟨h1, h2, h3, h4, h5⟩ := Flush_reliable (w := w₁) herr hrel
    refine ⟨h1, h2, h3, by simp [h4, hpos], ?_⟩
    rw [h4, h5, List.append_nil, List.append_assoc]
  · exact ⟨rfl, herr, hrel, Nat.lt_of_not_le hfull, (List.append_assoc _ _ _).symm⟩

/-- **On a reliable connection the loop ends**, within as many turns as there are bytes, with
every byte copied and no error; the connection's bytes and the buffer's are all that were
before and `b`. -/
theorem writeLoop_reliable : ∀ (fuel : Nat) (w : bufWriter ε) (b : List UInt8) (n : Nat),
    0 < w.batchSize → w.err = none → w.conn.Reliable → w.buf.length < w.batchSize →
    b.length ≤ fuel → ∃ w', writeLoop fuel w b n none = some (n + b.length, none, w') ∧
      w'.err = none ∧ w'.conn.Reliable ∧ w'.buf.length < w.batchSize ∧
      w'.conn.sent ++ w'.buf = w.conn.sent ++ w.buf ++ b
  | fuel, w, [], n, _, herr, hrel, hbuf, _ => ⟨w, by simp, herr, hrel, hbuf, by simp⟩
  | 0, _, _ :: _, _, _, _, _, _, hfuel => absurd hfuel (by simp)
  | fuel + 1, w, x :: b, n, hpos, herr, hrel, hbuf, hfuel => by
    obtain ⟨hnn, h1, h2, h3, h4, h5⟩ := turn_reliable hpos herr hrel hbuf (List.cons_ne_nil x b)
    have hnn' : (turn w (x :: b) none).1 ≤ (x :: b).length := by
      rw [turn_fst]
      omega
    -- the rest of the loop, after the turn's copy
    obtain ⟨w', hloop, h1', h2', h3', h4'⟩ := writeLoop_reliable fuel _ ((x :: b).drop
      (turn w (x :: b) none).1) (n + (turn w (x :: b) none).1) (by simpa using hpos) h2 h3
      (by simpa using h4) (by simp only [List.length_drop]; omega)
    refine ⟨w', ?_, h1', h2', by simpa using h3', ?_⟩
    · rw [writeLoop_succ _ _ _ _ _ (List.cons_ne_nil x b), h1, hloop, List.length_drop]
      congr 2
      omega
    · rw [h4', h5, List.append_assoc, List.take_append_drop]

/-- **On a reliable connection `Write` returns with every byte**: from any state the writer can
reach with no error stored, given a turn of its loop for each byte, it reports all of `b`
written and no error, and a `Flush` after it leaves the connection with every byte reported. -/
theorem Write_complete {log : List UInt8} {w : bufWriter ε} (h : Reachable log w)
    (herr : w.err = none) (hrel : w.conn.Reliable) (b : List UInt8) {fuel : Nat}
    (hfuel : b.length ≤ fuel) :
    ∃ w', w.Write fuel b = some (b.length, none, w') ∧ w'.err = none ∧
      w'.Flush.2.conn.sent = log ++ b := by
  have hinv := Inv.reachable h
  obtain ⟨hlog, hsmall⟩ := hinv.exact herr
  rcases Nat.eq_zero_or_pos w.batchSize with hzero | hpos
  · -- straight through: the connection takes it all at once
    have hbuf : w.buf = [] := by
      have := hinv.room
      simpa [hzero] using this
    obtain ⟨-, hok, hrel'⟩ := w.conn.Write_spec b
    obtain ⟨hnone, hrel₂⟩ := hrel' hrel
    refine ⟨{ w with conn := (w.conn.Write b).2.2 }, ?_, herr, ?_⟩
    · rw [Write_of_zero fuel b herr hzero, (hok hnone).2, hnone]
    rw [(Flush_reliable (w := { w with conn := (w.conn.Write b).2.2 }) herr hrel₂).2.2.2.2]
    simp only [hbuf, List.append_nil, (hok hnone).1]
    rw [← hlog, hbuf, List.append_nil]
  · have hbuf : w.buf.length < w.batchSize := by
      rcases hsmall with h0 | hlt
      · simp [h0, hpos]
      · exact hlt
    obtain ⟨w', hloop, h1, h2, -, h4⟩ := writeLoop_reliable fuel w b 0 hpos herr hrel hbuf hfuel
    refine ⟨w', by rw [Write_of_pos fuel b herr hpos, hloop, Nat.zero_add], h1, ?_⟩
    rw [(Flush_reliable h1 h2).2.2.2.2, h4, hlog]

/-- Twenty bytes through a new writer of batch size four on a connection that takes everything. -/
theorem Write_complete_sample : (newBufWriter (⟨[], []⟩ : netConn String) 4).err = none ∧
    (⟨[], []⟩ : netConn String).Reliable ∧
    ∃ w', (newBufWriter (⟨[], []⟩ : netConn String) 4).Write 20 sampleBytes =
        some (sampleBytes.length, none, w') ∧ w'.err = none ∧
      w'.Flush.2.conn.sent = [] ++ sampleBytes :=
  ⟨rfl, by simp [netConn.Reliable],
    Write_complete (Reachable.init ⟨[], []⟩ 4) rfl (by simp [netConn.Reliable, newBufWriter])
      sampleBytes
      (by decide)⟩

/-! ## When `Write` does not return -/

/-- A turn with an error stored and the buffer full copies nothing and changes nothing: `Flush`
returns the error and leaves the buffer as it is. -/
theorem turn_stuck {w : bufWriter ε} {e : ε} (herr : w.err = some e)
    (hfull : w.buf.length = 2 * w.batchSize) (b : List UInt8) (err : Option ε) :
    turn w b err = (0, some e, w) := by
  have hnn : min (2 * w.batchSize - w.buf.length) b.length = 0 := by omega
  have hsnd := turn_snd w b err
  rw [hnn, List.take_zero, List.append_nil, if_pos (by omega),
    Flush_of_err (w := { w with buf := w.buf }) herr] at hsnd
  exact Prod.ext (by rw [turn_fst, hnn]) hsnd

theorem writeLoop_stuck {w : bufWriter ε} {e : ε} (herr : w.err = some e)
    (hfull : w.buf.length = 2 * w.batchSize) {b : List UInt8} (hb : b ≠ []) :
    ∀ (fuel n : Nat) (err : Option ε), writeLoop fuel w b n err = none
  | 0, _, _ => by
    obtain ⟨x, b, rfl⟩ := List.exists_cons_of_ne_nil hb
    rfl
  | fuel + 1, n, err => by
    rw [writeLoop_succ _ _ _ _ _ hb, turn_stuck herr hfull]
    exact writeLoop_stuck herr hfull hb fuel _ _

/-- **With an error stored, the loop ends only if the rest fits in the buffer's room**:
otherwise the first turn fills the buffer, and from then on it stays full. -/
theorem writeLoop_of_err {w : bufWriter ε} {e : ε} (herr : w.err = some e)
    (hroom : w.buf.length ≤ 2 * w.batchSize) {b : List UInt8}
    (hlong : 2 * w.batchSize < w.buf.length + b.length) :
    ∀ (fuel n : Nat) (err : Option ε), writeLoop fuel w b n err = none := by
  have hb : b ≠ [] := by
    rintro rfl
    simp at hlong
    omega
  intro fuel n err
  cases fuel with
  | zero =>
    obtain ⟨x, b, rfl⟩ := List.exists_cons_of_ne_nil hb
    rfl
  | succ fuel =>
    rw [writeLoop_succ _ _ _ _ _ hb]
    have hnn : (turn w b err).1 = 2 * w.batchSize - w.buf.length := by
      rw [turn_fst]
      omega
    -- the turn fills the buffer, and its flush returns the error and keeps it
    have hcond : (w.buf ++ b.take (min (2 * w.batchSize - w.buf.length) b.length)).length ≥
        w.batchSize := by
      simp only [List.length_append, List.length_take]
      omega
    have hsnd := turn_snd w b err
    rw [if_pos hcond] at hsnd
    set w₁ : bufWriter ε := { w with buf := w.buf ++ b.take (min (2 * w.batchSize - w.buf.length)
      b.length) }
    rw [Flush_of_err (w := w₁) herr] at hsnd
    have hfull₁ : w₁.buf.length = 2 * w₁.batchSize := by
      simp only [w₁, List.length_append, List.length_take]
      omega
    rw [hsnd]
    refine writeLoop_stuck (w := w₁) herr hfull₁ ?_ fuel _ _
    rw [← List.length_pos_iff, List.length_drop, hnn]
    omega

/-- A turn whose flush is the connection's failing write stores the error and empties the
buffer. -/
theorem turn_fail {w : bufWriter ε} {b : List UInt8} {err : Option ε} {k : Nat} {e : ε}
    {rest : List (Option (Nat × ε))} (herr : w.err = none)
    (hfail : w.conn.outcomes = some (k, e) :: rest)
    (hfull : w.batchSize ≤ (w.buf ++ b.take (turn w b err).1).length)
    (hne : w.buf ++ b.take (turn w b err).1 ≠ []) :
    (turn w b err).2.2.err = some e ∧ (turn w b err).2.2.buf = [] := by
  rw [turn_fst] at hfull hne
  set w₁ : bufWriter ε := { w with buf := w.buf ++ b.take (min (2 * w.batchSize - w.buf.length)
    b.length) }
  rw [turn_snd, if_pos hfull, Flush_of_nonempty (w := w₁) herr hne]
  exact ⟨netConn.Write_of_fail hfail _, rfl⟩

/-- **`Write` spins when the flush of its first turn fails with more than the buffer's room
still to copy**: from a buffer below `batchSize`, the first turn fills the buffer and its flush
fails; the error is stored and the buffer emptied, and with more than `2 * batchSize` bytes
left the loop fills it and never ends.  The framer writes a frame in one call, and loopy's DATA
frames are up to `16384` bytes and a header of nine: with a `WriteBufferSize` of `4096` such a
frame spins on a connection that fails. -/
theorem Write_spins {w : bufWriter ε} (herr : w.err = none) (hpos : 0 < w.batchSize)
    (hbuf : w.buf.length < w.batchSize) {k : Nat} {e : ε} {rest : List (Option (Nat × ε))}
    (hfail : w.conn.outcomes = some (k, e) :: rest) {b : List UInt8}
    (hlong : 4 * w.batchSize < w.buf.length + b.length) (fuel : Nat) : w.Write fuel b = none := by
  have hb : b ≠ [] := by
    rintro rfl
    simp at hlong
    omega
  rw [Write_of_pos fuel b herr hpos]
  cases fuel with
  | zero =>
    obtain ⟨x, b, rfl⟩ := List.exists_cons_of_ne_nil hb
    rfl
  | succ fuel =>
    rw [writeLoop_succ _ _ _ _ _ hb]
    have hnn : (turn w b none).1 = 2 * w.batchSize - w.buf.length := by
      rw [turn_fst]
      omega
    have hlen : (w.buf ++ b.take (turn w b none).1).length = 2 * w.batchSize := by
      simp only [List.length_append, List.length_take, hnn]
      omega
    have hfull : w.batchSize ≤ (w.buf ++ b.take (turn w b none).1).length := by omega
    have hne : w.buf ++ b.take (turn w b none).1 ≠ [] := by
      rw [← List.length_pos_iff, hlen]
      omega
    obtain ⟨herr', hbuf'⟩ := turn_fail herr hfail hfull hne
    -- the error is stored with the buffer empty, and more than its room is left to copy
    refine writeLoop_of_err herr' (by simp [hbuf']) ?_ fuel _ _
    rw [hbuf', turn_batchSize, List.length_drop, hnn]
    simp only [List.length_nil]
    omega

/-- Seventeen bytes through a new writer of batch size four whose connection fails at once: the
loop runs for ever. -/
theorem Write_spins_sample :
    (newBufWriter ⟨[], [some (3, "broken pipe")]⟩ 4 : bufWriter String).err = none ∧
      4 * 4 < 0 + (sampleBytes.take 17).length ∧
      (newBufWriter ⟨[], [some (3, "broken pipe")]⟩ 4 : bufWriter String).Write 1000
        (sampleBytes.take 17) = none :=
  ⟨rfl, by decide, Write_spins rfl (by decide) (by decide) rfl (by decide) 1000⟩

end bufWriter

end Transport
end GrpcGo
