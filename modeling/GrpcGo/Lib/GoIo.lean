import Mathlib

/-!
# The two ends of a connection

A `net.Conn` is read and written by the code under study; what the network does is the
environment.  `Source` is the reading end: the peer's bytes in the chunks the network delivers
them in, then `io.EOF`.  Any delivery is such a list: a read returns the head chunk when it fits
the buffer and its first `k` bytes otherwise, so splitting the stream into chunks of the sizes
the reads are to return gives every behaviour of the network, an empty chunk being a read of no
bytes.  `Sink` is the writing end: it accepts bytes up to a budget and then fails.
`readAllLimit` reads all a reader yields, through an `io.LimitReader`.
-/

namespace GoStd
namespace Io

variable {α : Type _}

/-- The error text of `io.EOF`. -/
def EOF : String := "EOF"

/-- The error text of `io.ErrUnexpectedEOF`. -/
def ErrUnexpectedEOF : String := "unexpected EOF"

/-- The error a `Sink` returns once its budget is spent. -/
def ErrClosedPipe : String := "io: read/write on closed pipe"

/-! ## Reading -/

/-- `r.Read(p)` with `len(p) = k` on a connection that still has the chunks `cs` to deliver:
the bytes read and the chunks left. -/
def readChunk (k : Nat) : List (List α) → Except String (List α × List (List α))
  | [] => .error EOF
  | c :: cs => if c.length ≤ k then .ok (c, cs) else .ok (c.take k, c.drop k :: cs)

/-- What is left to deliver, counting each chunk as one more than its length, so that every read
into a nonempty buffer makes it smaller. -/
def remaining (cs : List (List α)) : Nat :=
  (cs.map fun c => c.length + 1).sum

theorem readChunk_eq_error {k : Nat} {cs : List (List α)} {e : String}
    (h : readChunk k cs = .error e) : cs = [] := by
  cases cs with
  | nil => rfl
  | cons c cs =>
    simp only [readChunk] at h
    split at h <;> cases h

theorem readChunk_nil (k : Nat) : readChunk k ([] : List (List α)) = .error EOF := rfl

variable {k : Nat} {cs cs' : List (List α)} {got : List α}

/-- A read that succeeds takes the head chunk whole when it fits, or else its first `k` bytes,
leaving the rest of the chunk in front of the others. -/
theorem readChunk_eq_ok (h : readChunk k cs = .ok (got, cs')) :
    ∃ c rest, cs = c :: rest ∧
      ((c.length ≤ k ∧ got = c ∧ cs' = rest) ∨
        (k < c.length ∧ got = c.take k ∧ cs' = c.drop k :: rest)) := by
  cases cs with
  | nil => cases h
  | cons c cs =>
    simp only [readChunk] at h
    split at h
    · rename_i hc
      cases h
      exact ⟨_, _, rfl, .inl ⟨hc, rfl, rfl⟩⟩
    · rename_i hc
      cases h
      exact ⟨_, _, rfl, .inr ⟨Nat.lt_of_not_le hc, rfl, rfl⟩⟩

theorem length_le_of_readChunk (h : readChunk k cs = .ok (got, cs')) : got.length ≤ k := by
  obtain ⟨c, rest, rfl, ⟨hc, rfl, rfl⟩ | ⟨-, rfl, rfl⟩⟩ := readChunk_eq_ok h
  · exact hc
  · exact List.length_take_le _ _

/-- Reading takes bytes off the front of the stream. -/
theorem append_of_readChunk (h : readChunk k cs = .ok (got, cs')) :
    got ++ cs'.flatten = cs.flatten := by
  obtain ⟨c, rest, rfl, ⟨-, rfl, rfl⟩ | ⟨-, rfl, rfl⟩⟩ := readChunk_eq_ok h
  · rfl
  · rw [List.flatten_cons, List.flatten_cons, ← List.append_assoc, List.take_append_drop]

theorem remaining_lt_of_readChunk (hk : 0 < k) (h : readChunk k cs = .ok (got, cs')) :
    remaining cs' < remaining cs := by
  obtain ⟨c, rest, rfl, ⟨-, rfl, rfl⟩ | ⟨hc, rfl, rfl⟩⟩ := readChunk_eq_ok h
  · -- the whole chunk and its count of one are gone
    simp only [remaining, List.map_cons, List.sum_cons]
    omega
  · -- `k` bytes of the chunk are gone
    simp only [remaining, List.map_cons, List.sum_cons, List.length_drop]
    omega

/-! ## Reading all of a limited reader -/

/-- `io.ReadAll(io.LimitReader(r, n))`, or `bytes.Buffer.ReadFrom` of the same reader, where `r`
yields `out` and then fails with `err` (`none` for `io.EOF`): the bytes read and the error.  The
limited reader reports `io.EOF` once it has passed on `n` bytes, before `r` fails, and at once
when `n` is not positive. -/
def readAllLimit {ε : Type _} (out : List α) (err : Option ε) (n : Int) : List α × Option ε :=
  if (out.length : Int) < n then (out, err) else (out.take n.toNat, none)

theorem readAllLimit_of_lt {ε : Type _} {out : List α} (err : Option ε) {n : Int}
    (h : (out.length : Int) < n) : readAllLimit out err n = (out, err) :=
  if_pos h

theorem readAllLimit_of_le {ε : Type _} {out : List α} (err : Option ε) {n : Int}
    (h : n ≤ out.length) : readAllLimit out err n = (out.take n.toNat, none) :=
  if_neg (Int.not_lt.mpr h)

/-! ## Writing -/

/-- The writing end: what it has accepted, and how much more it accepts (`none`: no limit). -/
structure Sink (α : Type _) where
  sent : List α
  budget : Option Nat

/-- `w.Write(p)`: the count written and the error, if any. -/
def Sink.write (w : Sink α) (p : List α) : (Nat × Option String) × Sink α :=
  match w.budget with
  | none => ((p.length, none), ⟨w.sent ++ p, none⟩)
  | some b =>
    if p.length ≤ b then ((p.length, none), ⟨w.sent ++ p, some (b - p.length)⟩)
    else ((b, some ErrClosedPipe), ⟨w.sent ++ p.take b, some 0⟩)

/-- A write that succeeds has accepted all of `p`. -/
theorem Sink.write_eq_ok {w w' : Sink α} {p : List α} {n : Nat}
    (h : w.write p = ((n, none), w')) : n = p.length ∧ w'.sent = w.sent ++ p := by
  unfold Sink.write at h
  split at h
  · cases h
    exact ⟨rfl, rfl⟩
  · split at h <;> cases h
    exact ⟨rfl, rfl⟩

/-- A write that fails has accepted the first `n` bytes of `p`, fewer than all of them. -/
theorem Sink.write_eq_error {w w' : Sink α} {p : List α} {n : Nat} {e : String}
    (h : w.write p = ((n, some e), w')) : n < p.length ∧ w'.sent = w.sent ++ p.take n := by
  unfold Sink.write at h
  split at h
  · cases h
  · split at h
    · cases h
    · rename_i b _ hlt
      cases h
      exact ⟨by omega, rfl⟩

/-! ## A connection -/

/-- A `net.Conn` as seen from one end: the chunks still to be read and the writing end. -/
structure Conn (α : Type _) where
  incoming : List (List α)
  out : Sink α

end Io
end GoStd
