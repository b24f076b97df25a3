import GrpcGo.Internal.Unbounded
import GrpcGo.Lib.GoIo
import GrpcGo.Lib.GoStrings
import GrpcGo.Status
import GrpcGo.Transport.Stream

/-!
# A stream's receive buffer and its reader (`internal/transport/transport.go`)

The transport's reader goroutine hands a stream what it receives by `s.write(m)`, which is
`s.buf.put(m)`: `handleData` writes the data of each DATA frame, the server writes `io.EOF` at
END_STREAM, and the client's `closeStream` writes the error that ends the stream, once, when the
stream was not yet done.  `recvBuffer` is `buffer.Unbounded` for `recvMsg`s, with one change:
`put` stores the error of the message it accepts, and accepts nothing once an error is stored.
The application reads through `recvBufferReader.Read`, which returns the rest of the last
message's data, or else waits in a `select` for the next message or for the stream's context.
On the server the context's error is returned at once.  On the client, `readClient` closes the
stream with that error, which writes it behind the data already buffered, and then receives
again.  Once `Read` has returned an error it returns that error for good.

The model is a machine whose events are the writes of the transport, the cancellation of the
context, and the steps of the reading goroutine: the start of a `Read`, the receive from the
buffer's channel (in the `select`, or after `closeStream`), and the `select`'s `ctx.Done()` case.
A list of events is any interleaving; a step the reader cannot take yet changes nothing.  The
outputs are the messages written and the returns of `Read`.

* `stream_reads_in_order`: the bytes `Read` returns are, in order, a prefix of the data written
  before the stream's first error: none is lost, duplicated or reordered, and nothing written after
  the first error is ever read;
* `read_error_final`: once `Read` returns an error it returns that error, and no data, on every
  later call; the error is the first one written, and by then all the data written before it has
  been read, unless it is the context's error on the server, which comes at once.
* `reads_refine_chunks`: once the DATA and the `io.EOF` that ends it are written, any sequence of
  reads returns what the chunk model of `Stream.Read` (`transportReader` in `Stream`) returns.

The window updates of `transportReader` and the buffer pool are not modelled.
-/

namespace GrpcGo
namespace Transport
namespace RecvBuffer

open GoStd Machine Internal.Buffer

/-- `recvMsg`: the data of a DATA frame (`buffer`), or the error that ends the stream, whose
buffer is nil (empty here). -/
structure recvMsg where
  buffer : Bytes
  err : Option String
  deriving DecidableEq, Repr

/-- `recvBuffer`: the one slot of the channel `c` and the `backlog`, as in `Unbounded`, and the
error of the message that ended the stream. -/
structure recvBuffer extends Unbounded recvMsg where
  err : Option String

/-- `newRecvBuffer()`. -/
def newRecvBuffer : recvBuffer := ⟨⟨none, []⟩, none⟩

namespace recvBuffer

/-- `b.put(r)`: nothing once an error is stored; otherwise the message's error is stored, and the
message goes to the slot when nothing is backlogged and the slot is free, else to the backlog. -/
def put (b : recvBuffer) (r : recvMsg) : recvBuffer :=
  match b.err with
  -- an error had occurred earlier: no more data or errors
  | some _ => b
  | none =>
    if b.backlog.length = 0 then
      match b.c with
      | none => { b with err := r.err, c := some r }
      | some _ => { b with err := r.err, backlog := b.backlog ++ [r] }
    else { b with err := r.err, backlog := b.backlog ++ [r] }

/-- `b.load()`: the oldest backlogged message into the slot, when the slot is free. -/
def load (b : recvBuffer) : recvBuffer :=
  match b.backlog with
  | m :: rest =>
    match b.c with
    | none => { b with c := some m, backlog := rest }
    | some _ => b
  | [] => b

end recvBuffer

/-- Where the goroutine reading the stream is: outside `Read`; in the `select` of `read` or
`readClient`, for a `p` of length `k`; or in `readClient`'s receive after `closeStream`. -/
inductive readerAt
  | idle
  | selecting (k : ℕ)
  | receiving (k : ℕ)
  deriving DecidableEq, Repr

/-- `recvBufferReader`: whether it has a `closeStream` (the client's reader does), `last` (`none`
for nil), `err`, and where its goroutine is. -/
structure recvBufferReader where
  client : Bool
  last : Option Bytes
  err : Option String
  pc : readerAt
  deriving DecidableEq, Repr

/-- `copied, _ := buf.Read(p)` with `len(p) = k` on a buffer holding `l`, and the buffer kept as
`last` unless it is then empty (freed, and `last` nil). -/
def readBuffer (l : Bytes) (k : ℕ) : Bytes × Option Bytes :=
  (l.take k, if l.length ≤ k then none else some (l.drop k))

namespace recvBufferReader

/-- `r.Read(p)` with `len(p) = k`, up to the `select` of `read` or `readClient`: an error stored
by an earlier `Read`, or data left from the last message, is returned at once. -/
def Read (r : recvBufferReader) (k : ℕ) : Option (Bytes × Option String) × recvBufferReader :=
  match r.err with
  | some e => (some ([], some e), r)
  | none =>
    match r.last with
    | some l => (some ((readBuffer l k).1, none), { r with last := (readBuffer l k).2 })
    | none => (none, { r with pc := .selecting k })

theorem Read_of_err {r : recvBufferReader} {e : String} (h : r.err = some e) (k : ℕ) :
    r.Read k = (some ([], some e), r) := by
  rw [Read, h]

theorem Read_of_last {r : recvBufferReader} {l : Bytes} (herr : r.err = none)
    (hlast : r.last = some l) (k : ℕ) :
    r.Read k = (some ((readBuffer l k).1, none), { r with last := (readBuffer l k).2 }) := by
  rw [Read, herr, hlast]

theorem Read_of_none {r : recvBufferReader} (herr : r.err = none) (hlast : r.last = none)
    (k : ℕ) : r.Read k = (none, { r with pc := .selecting k }) := by
  rw [Read, herr, hlast]

/-- `readAdditional(m, p)` after `r.recv.load()`: the message's error, or its first `k` bytes with
the rest kept in `last`; `Read` stores the error it returns in `r.err`. -/
def readAdditional (r : recvBufferReader) (m : recvMsg) (k : ℕ) :
    (Bytes × Option String) × recvBufferReader :=
  match m.err with
  | some e => (([], some e), { r with err := some e, pc := .idle })
  | none =>
    (((readBuffer m.buffer k).1, none),
      { r with last := (readBuffer m.buffer k).2, err := none, pc := .idle })

end recvBufferReader

/-- `ContextErr(ctx.Err())` for a context past its deadline or cancelled, as the text of the status
error. -/
def ContextErr (deadline : Bool) : String :=
  if deadline then (GoError.status ⟨.deadlineExceeded, "context deadline exceeded"⟩).Error
  else (GoError.status ⟨.canceled, "context canceled"⟩).Error

/-- One stream's receive side: its buffer and reader, whether the stream is done, and
`ContextErr(ctx.Err())` once its context is done. -/
structure recvStream where
  buf : recvBuffer
  reader : recvBufferReader
  done : Bool
  ctxErr : Option String

/-- A new stream, on the client or the server. -/
def newRecvStream (client : Bool) : recvStream :=
  ⟨newRecvBuffer, ⟨client, none, none, .idle⟩, false, none⟩

/-- What a run shows: a message written to the stream (accepted by the buffer or not), and a
return of `Read`. -/
inductive rsOutput
  | write (m : recvMsg)
  | read (n : Bytes) (err : Option String)
  deriving DecidableEq, Repr

/-- The events: `handleData` with the data of a DATA frame; the server's `io.EOF` at END_STREAM;
the client's `closeStream` with its error; the context's end, by its deadline or by
cancellation; and the reader's steps (`Read` with a `p` of length `k`, the receive from the
buffer's channel, the `select`'s `ctx.Done()` case). -/
inductive rsEvent
  | handleData (d : Bytes)
  | endStream
  | closeStream (err : Option String)
  | cancel (deadline : Bool)
  | Read (k : ℕ)
  | recv
  | ctxDone
  deriving DecidableEq, Repr

namespace recvStream

/-- `s.write(m)`. -/
def write (s : recvStream) (m : recvMsg) : List rsOutput × recvStream :=
  ([.write m], { s with buf := s.buf.put m })

/-- The client's `closeStream(s, err, …)` as the reading side sees it: the first call marks the
stream done and writes its error, if any; later calls do nothing. -/
def closeStream (s : recvStream) (err : Option String) : List rsOutput × recvStream :=
  if s.done then ([], s)
  else
    match err with
    | some e => ({ s with done := true }).write ⟨[], some e⟩
    | none => ([], { s with done := true })

/-- The reader's receive from `r.recv.get()`, in its `select` or after `closeStream`: it takes the
message in the slot, `load`s the next one, and returns what `readAdditional` returns. -/
def recv (s : recvStream) : List rsOutput × recvStream :=
  match s.reader.pc, s.buf.c with
  | .selecting k, some m | .receiving k, some m =>
    -- the receive empties the slot; `readAdditional` then calls `load`
    let buf : recvBuffer := { s.buf with c := none }
    let r := s.reader.readAdditional m k
    ([.read r.1.1 r.1.2], { s with buf := buf.load, reader := r.2 })
  | _, _ => ([], s)

/-- The `select`'s `<-r.ctxDone` once the context is done: the client's reader closes the stream
with the context's error and then receives from the buffer; the server's returns that error. -/
def ctxCase (s : recvStream) : List rsOutput × recvStream :=
  match s.reader.pc, s.ctxErr with
  | .selecting k, some e =>
    if s.reader.client then
      let r := s.closeStream (some e)
      (r.1, { r.2 with reader := { r.2.reader with pc := .receiving k } })
    else ([.read [] (some e)], { s with reader := { s.reader with err := some e, pc := .idle } })
  | _, _ => ([], s)

end recvStream

/-- One event. -/
def step (s : recvStream) : rsEvent → List rsOutput × recvStream
  | .handleData d => if d.length > 0 then s.write ⟨d, none⟩ else ([], s)
  | .endStream => s.write ⟨[], some Io.EOF⟩
  | .closeStream err => s.closeStream err
  | .cancel deadline => ([], { s with ctxErr := s.ctxErr.or (some (ContextErr deadline)) })
  | .Read k =>
    match s.reader.pc with
    | .idle =>
      let r := s.reader.Read k
      (r.1.toList.map fun x => .read x.1 x.2, { s with reader := r.2 })
    | _ => ([], s)
  | .recv => s.recv
  | .ctxDone => s.ctxCase

/-- The client reads a message, the transport closes the stream while the second waits in the
buffer, and the reader gets that message's data before the error. -/
example : (run step (newRecvStream true)
    [.handleData [1, 2, 3], .Read 2, .recv, .handleData [4], .closeStream (some Io.EOF),
      .Read 5, .Read 5, .recv, .Read 5, .recv, .Read 5]).1.filter (· matches .read _ _) =
    [.read [1, 2] none, .read [3] none, .read [4] none, .read [] (some Io.EOF),
      .read [] (some Io.EOF)] := by decide

/-! ## What a run writes and reads -/

/-- The message an output writes. -/
def rsOutput.written : rsOutput → Option recvMsg
  | .write m => some m
  | .read _ _ => none

/-- The bytes an output returns from `Read`. -/
def rsOutput.readData : rsOutput → Bytes
  | .write _ => []
  | .read n _ => n

/-- The messages written, in order. -/
def writes (out : List rsOutput) : List recvMsg := out.filterMap rsOutput.written

/-- The bytes returned by `Read`, in order. -/
def readBytes (out : List rsOutput) : Bytes := out.flatMap rsOutput.readData

/-- The messages `put` accepts of those written: all of them up to the first error, that one
included. -/
def accepted : List recvMsg → List recvMsg
  | [] => []
  | m :: ms =>
    match m.err with
    | some _ => [m]
    | none => m :: accepted ms

/-- The first error written. -/
def firstErr : List recvMsg → Option String
  | [] => none
  | m :: ms =>
    match m.err with
    | some e => some e
    | none => firstErr ms

/-- The data of the messages `ms`. -/
def dataOf (ms : List recvMsg) : Bytes := ms.flatMap recvMsg.buffer

section Trace

variable {out : List rsOutput} {ms l : List recvMsg} {m : recvMsg}

@[simp] theorem writes_append (o o' : List rsOutput) : writes (o ++ o') = writes o ++ writes o' :=
  List.filterMap_append

@[simp] theorem writes_write : writes [.write m] = [m] := rfl

@[simp] theorem writes_read (n : Bytes) (err : Option String) : writes [.read n err] = [] := rfl

@[simp] theorem writes_snoc_read (n : Bytes) (err : Option String) :
    writes (out ++ [.read n err]) = writes out := by
  simp

@[simp] theorem readBytes_append (o o' : List rsOutput) :
    readBytes (o ++ o') = readBytes o ++ readBytes o' :=
  List.flatMap_append

@[simp] theorem readBytes_write : readBytes [.write m] = [] := rfl

@[simp] theorem readBytes_read (n : Bytes) (err : Option String) : readBytes [.read n err] = n := by
  simp [readBytes, rsOutput.readData]

@[simp] theorem dataOf_append : dataOf (ms ++ l) = dataOf ms ++ dataOf l := List.flatMap_append

@[simp] theorem dataOf_singleton : dataOf [m] = m.buffer := List.flatMap_singleton ..

theorem firstErr_cons_of_none {x : recvMsg} (hx : x.err = none) :
    firstErr (x :: ms) = firstErr ms := by
  simp [firstErr, hx]

theorem firstErr_cons_of_some {x : recvMsg} {e : String} (hx : x.err = some e) :
    firstErr (x :: ms) = some e := by
  simp [firstErr, hx]

theorem accepted_cons_of_none {x : recvMsg} (hx : x.err = none) :
    accepted (x :: ms) = x :: accepted ms := by
  simp [accepted, hx]

theorem accepted_cons_of_some {x : recvMsg} {e : String} (hx : x.err = some e) :
    accepted (x :: ms) = [x] := by
  simp [accepted, hx]

theorem firstErr_singleton : firstErr [m] = m.err := by
  cases hm : m.err with
  | none => rw [firstErr_cons_of_none hm]; rfl
  | some e => rw [firstErr_cons_of_some hm]

theorem accepted_singleton : accepted [m] = [m] := by
  cases hm : m.err with
  | none => rw [accepted_cons_of_none hm]; rfl
  | some e => rw [accepted_cons_of_some hm]

theorem firstErr_append_of_none (h : firstErr ms = none) : firstErr (ms ++ l) = firstErr l := by
  induction ms with
  | nil => rfl
  | cons x xs ih =>
    cases hx : x.err with
    | none =>
      rw [firstErr_cons_of_none hx] at h
      rw [List.cons_append, firstErr_cons_of_none hx, ih h]
    | some e => rw [firstErr_cons_of_some hx] at h; cases h

theorem firstErr_append_of_some {e : String} (h : firstErr ms = some e) :
    firstErr (ms ++ l) = some e := by
  induction ms with
  | nil => cases h
  | cons x xs ih =>
    cases hx : x.err with
    | none =>
      rw [firstErr_cons_of_none hx] at h
      rw [List.cons_append, firstErr_cons_of_none hx, ih h]
    | some e' =>
      rw [firstErr_cons_of_some hx] at h
      rw [List.cons_append, firstErr_cons_of_some hx, h]

theorem accepted_append_of_none (h : firstErr ms = none) : accepted (ms ++ l) = ms ++ accepted l := by
  induction ms with
  | nil => rfl
  | cons x xs ih =>
    cases hx : x.err with
    | none =>
      rw [firstErr_cons_of_none hx] at h
      rw [List.cons_append, accepted_cons_of_none hx, ih h, List.cons_append]
    | some e => rw [firstErr_cons_of_some hx] at h; cases h

theorem accepted_append_of_some {e : String} (h : firstErr ms = some e) :
    accepted (ms ++ l) = accepted ms := by
  induction ms with
  | nil => cases h
  | cons x xs ih =>
    cases hx : x.err with
    | none =>
      rw [firstErr_cons_of_none hx] at h
      rw [List.cons_append, accepted_cons_of_none hx, accepted_cons_of_none hx, ih h]
    | some e' => rw [List.cons_append, accepted_cons_of_some hx, accepted_cons_of_some hx]

/-- With no error written, every message is accepted. -/
theorem accepted_of_firstErr_none (h : firstErr ms = none) : accepted ms = ms := by
  simpa [accepted] using accepted_append_of_none (l := []) h

/-- Writing a message after no error makes it accepted; after an error, nothing changes. -/
theorem accepted_snoc : accepted (ms ++ [m]) =
    if firstErr ms = none then accepted ms ++ [m] else accepted ms := by
  split_ifs with h
  · rw [accepted_append_of_none h, accepted_singleton, accepted_of_firstErr_none h]
  · obtain ⟨e, he⟩ := Option.ne_none_iff_exists'.mp h
    exact accepted_append_of_some he

theorem firstErr_snoc : firstErr (ms ++ [m]) = (firstErr ms).or m.err := by
  cases h : firstErr ms with
  | none => rw [firstErr_append_of_none h, firstErr_singleton, Option.none_or]
  | some e => rw [firstErr_append_of_some h]; rfl

theorem accepted_sublist : ∀ ms : List recvMsg, (accepted ms).Sublist ms
  | [] => List.Sublist.slnil
  | m :: ms => by
    cases hm : m.err with
    | none =>
      rw [accepted_cons_of_none hm]
      exact (accepted_sublist ms).cons_cons m
    | some e =>
      rw [accepted_cons_of_some hm]
      exact (List.nil_sublist ms).cons_cons m

/-- **An error is the last message accepted**, and it is the first error written. -/
theorem eq_nil_of_err_mem_accepted {c r : List recvMsg} {e : String} (hm : m.err = some e) :
    accepted ms = c ++ m :: r → r = [] ∧ firstErr ms = some e := by
  induction ms generalizing c with
  | nil => intro h; simp [accepted] at h
  | cons x xs ih =>
    intro h
    cases hx : x.err with
    | some e' =>
      -- the message with the first error is accepted alone
      rw [accepted_cons_of_some hx] at h
      rw [firstErr_cons_of_some hx]
      rcases c with _ | ⟨y, c⟩
      · obtain ⟨rfl, rfl⟩ := List.cons.inj h
        rw [hx] at hm
        exact ⟨rfl, hm⟩
      · simp at h
    | none =>
      rw [accepted_cons_of_none hx] at h
      rw [firstErr_cons_of_none hx]
      rcases c with _ | ⟨y, c⟩
      · obtain ⟨rfl, -⟩ := List.cons.inj h
        rw [hx] at hm
        cases hm
      · exact ih (List.cons.inj h).2

end Trace

/-! ## The buffer is `Unbounded` until its error -/

namespace recvBuffer

variable {b : recvBuffer} {r : recvMsg}

/-- Before an error, `put` is `Unbounded.Put` and stores the message's error. -/
theorem put_of_none (h : b.err = none) :
    (b.put r).toUnbounded = b.toUnbounded.Put r ∧ (b.put r).err = r.err := by
  unfold put Unbounded.Put
  rw [h]
  dsimp only
  split_ifs
  · cases b.c <;> exact ⟨rfl, rfl⟩
  · exact ⟨rfl, rfl⟩

/-- After an error, `put` changes nothing. -/
theorem put_of_some {e : String} (h : b.err = some e) : b.put r = b := by
  unfold put
  rw [h]

theorem pending_put : pending (b.put r).toUnbounded =
    if b.err = none then pending b.toUnbounded ++ [r] else pending b.toUnbounded := by
  split_ifs with h
  · rw [(put_of_none h).1, pending_Put]
  · obtain ⟨e, he⟩ := Option.ne_none_iff_exists'.mp h
    rw [put_of_some he]

theorem put_err : (b.put r).err = b.err.or r.err := by
  cases h : b.err with
  | none => rw [(put_of_none h).2, Option.none_or]
  | some e => rw [put_of_some h, h]; rfl

@[simp] theorem load_toUnbounded : b.load.toUnbounded = b.toUnbounded.Load := by
  unfold load Unbounded.Load
  cases b.backlog with
  | nil => rfl
  | cons m rest => cases b.c <;> rfl

@[simp] theorem load_err : b.load.err = b.err := by
  unfold load
  cases b.backlog with
  | nil => rfl
  | cons m rest => cases b.c <;> rfl

/-- A receive takes the oldest pending message, from the slot. -/
theorem pending_take {m : recvMsg} (hc : b.c = some m) :
    pending b.toUnbounded = m :: pending ({ b with c := none } : recvBuffer).toUnbounded := by
  simp [pending, hc]

/-- The slot is full while anything is pending: `put` keeps this before an error, as `Put` does. -/
theorem slot_put (herr : b.err = none) (hslot : b.c = none → b.backlog = []) :
    (b.put r).c = none → (b.put r).backlog = [] := by
  intro hc
  have hP : (b.toUnbounded.Put r).c = none := by
    rw [← (put_of_none herr).1]
    exact hc
  obtain ⟨hc₀, hb⟩ := Put_slot_free hP
  exact absurd (hslot hc₀) hb

/-- `load` fills the slot when anything is backlogged. -/
theorem slot_load (h : b.load.c = none) : b.load.backlog = [] := by
  have hL : b.toUnbounded.Load.c = none := by
    rw [← load_toUnbounded]
    exact h
  obtain ⟨hb, hload⟩ := Load_slot_free hL
  show b.load.toUnbounded.backlog = []
  rw [load_toUnbounded, hload]
  exact hb

/-- With the slot full while anything is pending, the oldest pending message is in the slot. -/
theorem slot_head {x : recvMsg} {xs : List recvMsg} (hslot : b.c = none → b.backlog = [])
    (hpend : pending b.toUnbounded = x :: xs) :
    b.c = some x ∧ pending ({ b with c := none } : recvBuffer).toUnbounded = xs := by
  cases hc : b.c with
  | none => simp [pending, hc, hslot hc] at hpend
  | some m =>
    simp only [pending, hc, Option.toList_some, List.singleton_append, List.cons.injEq] at hpend
    obtain ⟨rfl, rfl⟩ := hpend
    exact ⟨rfl, rfl⟩

end recvBuffer

/-! ## What the reader returns -/

/-- Why `Read` may return the error `e` after the outputs `out`: it is the first error written, and
all the data written before it has been read; or it is the context's error, on the server. -/
def Justified (client : Bool) (out : List rsOutput) (e : String) : Prop :=
  (firstErr (writes out) = some e ∧ readBytes out = dataOf (accepted (writes out))) ∨
    (client = false ∧ ∃ d, e = ContextErr d)

/-- Each error `Read` returned carries no data, every later return is that error again, and it
was justified when it was returned. -/
def Sticky (client : Bool) (out : List rsOutput) : Prop :=
  ∀ o₁ o₂ n e, out = o₁ ++ .read n (some e) :: o₂ →
    n = [] ∧ (∀ n' err', .read n' err' ∈ o₂ → n' = [] ∧ err' = some e) ∧ Justified client o₁ e

theorem snoc_eq_append_cons {α : Type} {l o₁ o₂ : List α} {x y : α}
    (h : l ++ [x] = o₁ ++ y :: o₂) :
    (o₁ = l ∧ y = x ∧ o₂ = []) ∨ ∃ o₂', o₂ = o₂' ++ [x] ∧ l = o₁ ++ y :: o₂' := by
  rcases o₂.eq_nil_or_concat with rfl | ⟨o₂', z, rfl⟩
  · obtain ⟨hl, hx⟩ := List.append_inj' h rfl
    exact .inl ⟨hl.symm, (List.cons.inj hx).1.symm, rfl⟩
  · rw [List.concat_eq_append, ← List.cons_append, ← List.append_assoc] at h
    rw [List.concat_eq_append]
    obtain ⟨hl, hx⟩ := List.append_inj' h rfl
    obtain ⟨rfl, -⟩ := List.cons.inj hx
    exact .inr ⟨o₂', rfl, hl⟩

section Sticky

variable {client : Bool} {out : List rsOutput}

theorem Justified.snoc_write {e : String} (h : Justified client out e) (m : recvMsg) :
    Justified client (out ++ [.write m]) e := by
  rcases h with ⟨hfirst, hread⟩ | hctx
  · refine .inl ⟨?_, ?_⟩
    · rw [writes_append, writes_write, firstErr_append_of_some hfirst]
    · rw [writes_append, writes_write, accepted_append_of_some hfirst, readBytes_append,
        readBytes_write, List.append_nil, hread]
  · exact .inr hctx

theorem Justified.snoc_read {e : String} (h : Justified client out e) (err : Option String) :
    Justified client (out ++ [.read [] err]) e := by
  rcases h with ⟨hfirst, hread⟩ | hctx
  · exact .inl ⟨by simpa using hfirst, by simpa using hread⟩
  · exact .inr hctx

theorem Sticky.snoc_write (h : Sticky client out) (m : recvMsg) :
    Sticky client (out ++ [.write m]) := by
  intro o₁ o₂ n e hsplit
  rcases snoc_eq_append_cons hsplit with ⟨-, hy, -⟩ | ⟨o₂', rfl, hout⟩
  · cases hy
  · obtain ⟨hn, hlater, hj⟩ := h o₁ o₂' n e hout
    refine ⟨hn, fun n' err' hmem => ?_, hj⟩
    rcases List.mem_append.mp hmem with hmem | hmem
    · exact hlater n' err' hmem
    · simp at hmem

/-- A return of data, when no error was returned before, leaves no error return to check. -/
theorem sticky_snoc_data (hno : ∀ n e, .read n (some e) ∉ out) (d : Bytes) :
    Sticky client (out ++ [.read d none]) := by
  intro o₁ o₂ n e hsplit
  rcases snoc_eq_append_cons hsplit with ⟨-, hy, -⟩ | ⟨o₂', rfl, hout⟩
  · cases hy
  · exact absurd (hout ▸ List.mem_append_right o₁ (List.mem_cons_self ..)) (hno n e)

/-- A return of the error every earlier error return had, justified now, keeps them final. -/
theorem Sticky.snoc_err {e : String} (h : Sticky client out)
    (hprev : ∀ n' e', .read n' (some e') ∈ out → e' = e) (hj : Justified client out e) :
    Sticky client (out ++ [.read [] (some e)]) := by
  intro o₁ o₂ n e₀ hsplit
  rcases snoc_eq_append_cons hsplit with ⟨rfl, hy, rfl⟩ | ⟨o₂', rfl, hout⟩
  · -- the new return
    obtain ⟨rfl, he⟩ := rsOutput.read.inj hy
    cases he
    exact ⟨rfl, fun _ _ hmem => absurd hmem List.not_mem_nil, hj⟩
  · -- an earlier one: the new return is the same error
    obtain ⟨hn, hlater, hj₀⟩ := h o₁ o₂' n e₀ hout
    have he : e₀ = e := hprev n e₀ (hout ▸ List.mem_append_right o₁ (List.mem_cons_self ..))
    refine ⟨hn, fun n' err' hmem => ?_, hj₀⟩
    rcases List.mem_append.mp hmem with hmem | hmem
    · exact hlater n' err' hmem
    · simp only [List.mem_singleton, rsOutput.read.injEq] at hmem
      exact ⟨hmem.1, hmem.2 ▸ he ▸ rfl⟩

end Sticky

/-! ## The invariant -/

/-- What every run keeps: error messages carry no data; the buffer's error is the first error
written; the buffer holds the accepted messages the reader has not taken, and what the reader
returned, followed by its `last`, is the data of those it took; a reader in its `select` has no
`last` and no error; an error the reader stored has emptied `last` and is justified; the context's
error is a `ContextErr`; every error returned is the stored one; and the errors returned are
final. -/
structure Reads (out : List rsOutput) (s : recvStream) : Prop where
  wf : ∀ m ∈ writes out, m.err ≠ none → m.buffer = []
  buf_err : s.buf.err = firstErr (writes out)
  fifo : ∃ consumed, consumed ++ pending s.buf.toUnbounded = accepted (writes out) ∧
    readBytes out ++ s.reader.last.getD [] = dataOf consumed
  waiting : s.reader.pc ≠ .idle → s.reader.last = none ∧ s.reader.err = none
  err_read : ∀ e, s.reader.err = some e → s.reader.last = none ∧ Justified s.reader.client out e
  ctx : ∀ e, s.ctxErr = some e → ∃ d, e = ContextErr d
  returned : ∀ n e, rsOutput.read n (some e) ∈ out → s.reader.err = some e
  sticky : Sticky s.reader.client out

/-- `buf.Read(p)` returns the first bytes of the buffer and keeps the rest. -/
theorem readBuffer_append (l : Bytes) (k : ℕ) : (readBuffer l k).1 ++ (readBuffer l k).2.getD [] = l := by
  unfold readBuffer
  split_ifs with hk
  · simp [List.take_of_length_le hk]
  · simp

theorem reads_new (client : Bool) : Reads [] (newRecvStream client) where
  wf _ h := nomatch h
  buf_err := rfl
  fifo := ⟨[], rfl, rfl⟩
  waiting h := absurd rfl h
  err_read _ h := nomatch h
  ctx _ h := nomatch h
  returned _ _ h := nomatch h
  sticky _ _ _ _ h := by simp at h

section Steps

variable {out : List rsOutput} {s : recvStream}

/-- No error was returned while the reader has none stored. -/
theorem Reads.no_err_returned (h : Reads out s) (herr : s.reader.err = none) :
    ∀ n e, rsOutput.read n (some e) ∉ out := by
  intro n e hmem
  rw [h.returned n e hmem] at herr
  cases herr

/-- `closeStream` does not touch the reader. -/
theorem closeStream_reader (err : Option String) : (s.closeStream err).2.reader = s.reader := by
  unfold recvStream.closeStream
  split_ifs
  · rfl
  · cases err <;> rfl

theorem readAdditional_client (r : recvBufferReader) (m : recvMsg) (k : ℕ) :
    (r.readAdditional m k).2.client = r.client := by
  unfold recvBufferReader.readAdditional
  split <;> rfl

/-- No step changes which side the reader is on. -/
theorem step_client : ∀ ev, (step s ev).2.reader.client = s.reader.client
  | .handleData d => by
    simp only [step]
    split_ifs <;> rfl
  | .endStream | .cancel _ => rfl
  | .closeStream err => congrArg recvBufferReader.client (closeStream_reader err)
  | .Read k => by
    simp only [step]
    split
    · unfold recvBufferReader.Read
      split
      · rfl
      · split <;> rfl
    · rfl
  | .recv => by
    show s.recv.2.reader.client = _
    unfold recvStream.recv
    split
    next k m _ _ => exact readAdditional_client _ m k
    next k m _ _ => exact readAdditional_client _ m k
    next => rfl
  | .ctxDone => by
    show s.ctxCase.2.reader.client = _
    unfold recvStream.ctxCase
    split
    · split_ifs
      · -- the client's reader waits again after `closeStream`, which leaves it alone
        show (s.closeStream (some _)).2.reader.client = _
        rw [closeStream_reader]
      · rfl
    · rfl

/-- The invariant reads neither `done` nor the context's fields but `ctxErr`. -/
theorem Reads.done (h : Reads out s) (b : Bool) : Reads out { s with done := b } :=
  ⟨h.wf, h.buf_err, h.fifo, h.waiting, h.err_read, h.ctx, h.returned, h.sticky⟩

/-- **A write keeps the invariant**: before an error the message is accepted behind the pending
ones; after, it is dropped. -/
theorem Reads.write (h : Reads out s) {m : recvMsg} (hwf : m.err ≠ none → m.buffer = []) :
    Reads (out ++ [.write m]) (s.write m).2 where
  wf x hx hxe := by
    rw [writes_append, writes_write] at hx
    rcases List.mem_append.mp hx with hx | hx
    · exact h.wf x hx hxe
    · rw [List.mem_singleton.mp hx] at hxe ⊢
      exact hwf hxe
  buf_err := by
    show (s.buf.put m).err = _
    rw [recvBuffer.put_err, h.buf_err, writes_append, writes_write, firstErr_snoc]
  fifo := by
    obtain ⟨consumed, hcons, hbytes⟩ := h.fifo
    refine ⟨consumed, ?_, by rw [readBytes_append, readBytes_write, List.append_nil]; exact hbytes⟩
    show consumed ++ pending (s.buf.put m).toUnbounded = _
    rw [recvBuffer.pending_put, writes_append, writes_write, accepted_snoc, h.buf_err]
    split_ifs
    · rw [← List.append_assoc, hcons]
    · exact hcons
  waiting := h.waiting
  err_read e he := ⟨(h.err_read e he).1, (h.err_read e he).2.snoc_write m⟩
  ctx := h.ctx
  returned n e hmem := h.returned n e (by simpa using hmem)
  sticky := h.sticky.snoc_write m

theorem Reads.closeStream (h : Reads out s) (err : Option String) :
    Reads (out ++ (s.closeStream err).1) (s.closeStream err).2 := by
  unfold recvStream.closeStream
  split_ifs
  · rw [List.append_nil]
    exact h
  · cases err with
    | none =>
      rw [List.append_nil]
      exact h.done true
    | some e => exact (h.done true).write fun _ => rfl

theorem Reads.cancel (h : Reads out s) (d : Bool) :
    Reads out { s with ctxErr := s.ctxErr.or (some (ContextErr d)) } where
  wf := h.wf
  buf_err := h.buf_err
  fifo := h.fifo
  waiting := h.waiting
  err_read := h.err_read
  ctx e he := by
    cases hctx : s.ctxErr with
    | none =>
      rw [hctx, Option.none_or] at he
      exact ⟨d, (Option.some.inj he).symm⟩
    | some e' =>
      rw [hctx] at he
      exact h.ctx e (hctx.trans he)
  returned := h.returned
  sticky := h.sticky

/-- A reader with no `last` and no error may wait anywhere. -/
theorem Reads.wait (h : Reads out s) (hlast : s.reader.last = none) (herr : s.reader.err = none)
    (pc : readerAt) : Reads out { s with reader := { s.reader with pc := pc } } where
  wf := h.wf
  buf_err := h.buf_err
  fifo := h.fifo
  waiting _ := ⟨hlast, herr⟩
  err_read _ he := nomatch herr.symm.trans he
  ctx := h.ctx
  returned n e hmem := absurd hmem (h.no_err_returned herr n e)
  sticky := h.sticky

/-- With no error stored, an error return after `out` is the one just appended. -/
theorem Reads.returned_snoc (h : Reads out s) (herr : s.reader.err = none) {n d : Bytes}
    {e : String} {err : Option String} (hmem : rsOutput.read n (some e) ∈ out ++ [.read d err]) :
    err = some e := by
  rcases List.mem_append.mp hmem with hmem | hmem
  · exact absurd hmem (h.no_err_returned herr n e)
  · simp only [List.mem_singleton, rsOutput.read.injEq] at hmem
    exact hmem.2.symm

/-- The first error return, when justified, keeps the errors returned final. -/
theorem Reads.sticky_first (h : Reads out s) (herr : s.reader.err = none) {e : String}
    (hj : Justified s.reader.client out e) : Sticky s.reader.client (out ++ [.read [] (some e)]) :=
  h.sticky.snoc_err (fun n' e' hmem => absurd hmem (h.no_err_returned herr n' e')) hj

/-- **A `Read` after an error returns it again.** -/
theorem Reads.readErr {e : String} (h : Reads out s) (herr : s.reader.err = some e) :
    Reads (out ++ [.read [] (some e)]) s where
  wf := by simpa using h.wf
  buf_err := by rw [h.buf_err, writes_snoc_read]
  fifo := by simpa using h.fifo
  waiting := h.waiting
  err_read e' he' := ⟨(h.err_read e' he').1, (h.err_read e' he').2.snoc_read _⟩
  ctx := h.ctx
  returned n e' hmem := by
    rcases List.mem_append.mp hmem with hmem | hmem
    · exact h.returned n e' hmem
    · simp only [List.mem_singleton, rsOutput.read.injEq, Option.some.injEq] at hmem
      rw [herr, hmem.2]
  sticky :=
    have hprev : ∀ n' e', .read n' (some e') ∈ out → e' = e := fun n' e' hmem =>
      Option.some.inj ((h.returned n' e' hmem).symm.trans herr)
    h.sticky.snoc_err hprev (h.err_read e herr).2

/-- A `Read` with data left in `last` returns its first bytes and keeps the rest. -/
theorem Reads.readLast {l : Bytes} (h : Reads out s) (hpc : s.reader.pc = .idle)
    (herr : s.reader.err = none) (hlast : s.reader.last = some l) (k : ℕ) :
    Reads (out ++ [.read (readBuffer l k).1 none])
      { s with reader := { s.reader with last := (readBuffer l k).2 } } where
  wf := by simpa using h.wf
  buf_err := by rw [h.buf_err, writes_snoc_read]
  fifo := by
    obtain ⟨consumed, hcons, hbytes⟩ := h.fifo
    refine ⟨consumed, by simpa using hcons, ?_⟩
    rw [hlast, Option.getD_some] at hbytes
    show readBytes (out ++ _) ++ (readBuffer l k).2.getD [] = _
    rw [readBytes_append, readBytes_read, List.append_assoc, readBuffer_append]
    exact hbytes
  waiting hpc' := absurd hpc hpc'
  err_read _ he := nomatch herr.symm.trans he
  ctx := h.ctx
  returned _ _ hmem := nomatch h.returned_snoc herr hmem
  sticky := sticky_snoc_data (h.no_err_returned herr) _

/-- **The receive of the message in the slot** by a waiting reader: the message is the next one
accepted; its error is stored and returned, or its first bytes returned and the rest kept in
`last`.  The state after is given by its fields, as `recv` and `readClient` build it. -/
theorem Reads.take {m : recvMsg} {k : ℕ} {s' : recvStream} (h : Reads out s)
    (hpc : s.reader.pc ≠ .idle) (hc : s.buf.c = some m)
    (hbuf : s'.buf = ({ s.buf with c := none } : recvBuffer).load)
    (hreader : s'.reader = (s.reader.readAdditional m k).2) (hctx : s'.ctxErr = s.ctxErr) :
    Reads (out ++ [.read (s.reader.readAdditional m k).1.1 (s.reader.readAdditional m k).1.2])
      s' := by
  obtain ⟨hlast, herr⟩ := h.waiting hpc
  obtain ⟨consumed, hcons, hbytes⟩ := h.fifo
  rw [hlast, Option.getD_none, List.append_nil] at hbytes
  -- the message taken is the next accepted one, and `load` keeps the rest in order
  have hacc : accepted (writes out) =
      consumed ++ m :: pending ({ s.buf with c := none } : recvBuffer).toUnbounded := by
    rw [← hcons, recvBuffer.pending_take hc]
  have hconsumed : consumed ++ [m] ++ pending s'.buf.toUnbounded = accepted (writes out) := by
    rw [hbuf, recvBuffer.load_toUnbounded, pending_Load, List.append_assoc, List.singleton_append,
      hacc]
  have hbuf_err : s'.buf.err = s.buf.err := by rw [hbuf, recvBuffer.load_err]
  have hwf : ∀ n err, ∀ x ∈ writes (out ++ [.read n err]), x.err ≠ none → x.buffer = [] :=
    fun _ _ x hx => h.wf x (by simpa using hx)
  have hctx' : ∀ e, s'.ctxErr = some e → ∃ d, e = ContextErr d := hctx ▸ h.ctx
  cases hm : m.err with
  | none =>
    simp only [recvBufferReader.readAdditional, hm] at hreader ⊢
    constructor
    case wf => exact hwf _ _
    case buf_err => rw [hbuf_err, h.buf_err, writes_snoc_read]
    case fifo =>
      refine ⟨consumed ++ [m], by rw [writes_snoc_read]; exact hconsumed, ?_⟩
      rw [hreader, readBytes_append, readBytes_read, List.append_assoc, readBuffer_append,
        dataOf_append, dataOf_singleton, hbytes]
    case waiting => simp [hreader]
    case err_read => simp [hreader]
    case ctx => exact hctx'
    case returned => exact fun _ _ hmem => nomatch h.returned_snoc herr hmem
    case sticky =>
      rw [hreader]
      exact sticky_snoc_data (h.no_err_returned herr) _
  | some e =>
    simp only [recvBufferReader.readAdditional, hm] at hreader ⊢
    -- an error message carries no data and ends what is accepted
    have hmem : m ∈ writes out :=
      (accepted_sublist _).subset (hacc ▸ List.mem_append_right _ (List.mem_cons_self ..))
    have hmbuf : m.buffer = [] := h.wf m hmem (by rw [hm]; exact nofun)
    obtain ⟨hrest, hfirst⟩ := eq_nil_of_err_mem_accepted hm hacc
    have hj : Justified s.reader.client out e := by
      refine .inl ⟨hfirst, ?_⟩
      rw [hacc, hrest, dataOf_append, dataOf_singleton, hmbuf, List.append_nil, hbytes]
    constructor
    case wf => exact hwf _ _
    case buf_err => rw [hbuf_err, h.buf_err, writes_snoc_read]
    case fifo =>
      refine ⟨consumed ++ [m], by rw [writes_snoc_read]; exact hconsumed, ?_⟩
      rw [hreader]
      simp [hlast, hbytes, hmbuf]
    case waiting => simp [hreader]
    case err_read =>
      intro e' he'
      simp only [hreader, Option.some.injEq] at he'
      subst he'
      rw [hreader]
      exact ⟨hlast, hj.snoc_read _⟩
    case ctx => exact hctx'
    case returned =>
      intro n e' hmem'
      rw [hreader]
      exact h.returned_snoc herr hmem'
    case sticky =>
      rw [hreader]
      exact h.sticky_first herr hj

/-- The server's reader returns the context's error from its `select`. -/
theorem Reads.ctxServer {e : String} (h : Reads out s) (hlast : s.reader.last = none)
    (herr : s.reader.err = none) (hclient : s.reader.client = false) (hctx : s.ctxErr = some e) :
    Reads (out ++ [.read [] (some e)])
      { s with reader := { s.reader with err := some e, pc := .idle } } where
  wf x hx := h.wf x (by simpa using hx)
  buf_err := by rw [h.buf_err, writes_snoc_read]
  fifo := by simpa using h.fifo
  waiting hpc' := absurd rfl hpc'
  err_read e' he' := by
    obtain rfl : e = e' := Option.some.inj he'
    exact ⟨hlast, .inr ⟨hclient, h.ctx e hctx⟩⟩
  ctx := h.ctx
  returned _ _ hmem := h.returned_snoc herr hmem
  sticky := h.sticky_first herr (.inr ⟨hclient, h.ctx e hctx⟩)

theorem Reads.Read (h : Reads out s) (k : ℕ) :
    Reads (out ++ (step s (.Read k)).1) (step s (.Read k)).2 := by
  cases hpc : s.reader.pc with
  | idle =>
    -- the `match` on where the reader is goes first, before `Read` exposes the reader's fields
    simp only [step, hpc]
    cases herr : s.reader.err with
    | some e =>
      rw [recvBufferReader.Read_of_err herr]
      exact h.readErr herr
    | none =>
      cases hlast : s.reader.last with
      | some l =>
        rw [recvBufferReader.Read_of_last herr hlast]
        exact h.readLast hpc herr hlast k
      | none =>
        rw [recvBufferReader.Read_of_none herr hlast, Option.toList_none, List.map_nil,
          List.append_nil]
        exact h.wait hlast herr (.selecting k)
  | selecting _ | receiving _ =>
    simp only [step, hpc, List.append_nil]
    exact h

theorem Reads.recv (h : Reads out s) : Reads (out ++ s.recv.1) s.recv.2 := by
  unfold recvStream.recv
  split
  next k m hpc hc => exact h.take (by rw [hpc]; exact nofun) hc rfl rfl rfl
  next k m hpc hc => exact h.take (by rw [hpc]; exact nofun) hc rfl rfl rfl
  next => rw [List.append_nil]; exact h

theorem Reads.ctxCase (h : Reads out s) : Reads (out ++ s.ctxCase.1) s.ctxCase.2 := by
  unfold recvStream.ctxCase
  split
  next k e hpc hctx =>
    obtain ⟨hlast, herr⟩ := h.waiting (by rw [hpc]; exact nofun)
    split_ifs with hclient
    · -- the client closes the stream with the context's error, then receives
      have hclosed := h.closeStream (some e)
      exact hclosed.wait (by rw [closeStream_reader, hlast]) (by rw [closeStream_reader, herr])
        (.receiving k)
    · exact h.ctxServer hlast herr (by simpa using hclient) hctx
  next => rw [List.append_nil]; exact h

/-- **Every event keeps the invariant.** -/
theorem reads_step (h : Reads out s) : ∀ ev, Reads (out ++ (step s ev).1) (step s ev).2
  | .handleData d => by
    simp only [step]
    split_ifs
    · exact h.write nofun
    · rw [List.append_nil]; exact h
  | .endStream => h.write fun _ => rfl
  | .closeStream err => h.closeStream err
  | .cancel d => by
    rw [step, List.append_nil]
    exact h.cancel d
  | .Read k => h.Read k
  | .recv => h.recv
  | .ctxDone => h.ctxCase

end Steps

/-- **Every run keeps the invariant**, from a new stream, over any interleaving of events. -/
theorem reads_run (client : Bool) (es : List rsEvent) :
    Reads (run step (newRecvStream client) es).1 (run step (newRecvStream client) es).2 := by
  have hinv : Invariant (fun _ _ => True) step (fun _ => True) := fun _ _ _ _ => trivial
  have h := hinv.outputs (P := Reads) (fun out s e _ _ hs => reads_step hs e) trivial
    (admits_of_forall (fun _ _ => trivial) _ es) (reads_new client)
  rwa [List.nil_append] at h

theorem client_run (client : Bool) (es : List rsEvent) :
    (run step (newRecvStream client) es).2.reader.client = client := by
  have hinv : Invariant (fun _ _ => True) step (fun s => s.reader.client = client) :=
    fun s e hs _ => (step_client e).trans hs
  exact hinv.run rfl (admits_of_forall (fun _ _ => trivial) _ es)

/-! ## What `Read` returns -/

/-- **The reads are the data written, in order, up to the first error.**  After any run, the bytes
`Read` returned, then those the reader keeps in `last`, then the data of the messages pending in
the buffer, are exactly the data of the messages accepted: those written up to the first error.
So what `Read` returns is a prefix of that data: nothing is lost, duplicated or reordered, and
nothing written after the first error is read. -/
theorem stream_reads_in_order (client : Bool) (es : List rsEvent) :
    readBytes (run step (newRecvStream client) es).1 ++
          (run step (newRecvStream client) es).2.reader.last.getD [] ++
          dataOf (pending (run step (newRecvStream client) es).2.buf.toUnbounded) =
        dataOf (accepted (writes (run step (newRecvStream client) es).1)) ∧
      readBytes (run step (newRecvStream client) es).1 <+:
        dataOf (accepted (writes (run step (newRecvStream client) es).1)) := by
  obtain ⟨consumed, hcons, hbytes⟩ := (reads_run client es).fifo
  have hall : readBytes (run step (newRecvStream client) es).1 ++
      (run step (newRecvStream client) es).2.reader.last.getD [] ++
      dataOf (pending (run step (newRecvStream client) es).2.buf.toUnbounded) =
      dataOf (accepted (writes (run step (newRecvStream client) es).1)) := by
    rw [hbytes, ← hcons, dataOf_append]
  refine ⟨hall, ?_⟩
  rw [← hall, List.append_assoc]
  exact List.prefix_append _ _

/-- **An error returned by `Read` is final.**  Wherever a run's outputs show `Read` returning an
error `e`, it returned no data with it; every later return of `Read` is `e` again, with no data;
and `e` is the first error written to the stream, returned only after all the data written before
it, unless the reader is the server's and `e` is its context's error. -/
theorem read_error_final (client : Bool) (es : List rsEvent) (o₁ o₂ : List rsOutput) (n : Bytes)
    (e : String) (hsplit : (run step (newRecvStream client) es).1 = o₁ ++ .read n (some e) :: o₂) :
    n = [] ∧ (∀ n' err', .read n' err' ∈ o₂ → n' = [] ∧ err' = some e) ∧
      ((firstErr (writes o₁) = some e ∧ readBytes o₁ = dataOf (accepted (writes o₁))) ∨
        (client = false ∧ ∃ d, e = ContextErr d)) := by
  have hsticky := (reads_run client es).sticky
  rw [client_run] at hsticky
  exact hsticky o₁ o₂ n e hsplit

/-- The client reads the data written before the transport closes the stream, then the error,
twice. -/
theorem read_error_final_sample :
    (run step (newRecvStream true)
        [.handleData [1, 2], .closeStream (some Io.EOF), .Read 5, .recv, .Read 5, .recv, .Read 5]).1 =
      [.write ⟨[1, 2], none⟩, .write ⟨[], some Io.EOF⟩, .read [1, 2] none] ++
        .read [] (some Io.EOF) :: [.read [] (some Io.EOF)] ∧
    firstErr (writes [.write ⟨[1, 2], none⟩, .write ⟨[], some Io.EOF⟩, .read [1, 2] none]) =
      some Io.EOF := by
  have hrun : (run step (newRecvStream true)
      [.handleData [1, 2], .closeStream (some Io.EOF), .Read 5, .recv, .Read 5, .recv, .Read 5]).1 =
      [.write ⟨[1, 2], none⟩, .write ⟨[], some Io.EOF⟩, .read [1, 2] none] ++
        .read [] (some Io.EOF) :: [.read [] (some Io.EOF)] := by decide
  obtain ⟨-, -, hj⟩ := read_error_final true _ _ _ _ _ hrun
  refine ⟨hrun, ?_⟩
  rcases hj with ⟨hfirst, -⟩ | ⟨hclient, -⟩
  · exact hfirst
  · cases hclient

/-! ## `Read` refines the chunk model of `Stream.Read` -/

/-- The application's `Read(p)` with `len(p) = k` once nothing more is written: `Read`, and the
receive it waits for when it has neither data nor an error at hand. -/
def readCall (s : recvStream) (k : ℕ) : List rsOutput × recvStream :=
  run step s [.Read k, .recv]

/-- A return of `transportReader.Read`, as the stream shows it. -/
def readOutput : Except String Bytes → rsOutput
  | .ok n => .read n none
  | .error err => .read [] (some err)

/-- `transportReader.Read` as a machine whose events are the lengths read. -/
def chunkStep (t : transportReader) (k : ℕ) : List (Except String Bytes) × transportReader :=
  ([(t.Read k).1], (t.Read k).2)

/-- How the transport ends a stream's data with `io.EOF` at END_STREAM: the client's `handleData`
calls `closeStream(s, io.EOF, …)`, the server's writes `io.EOF` itself. -/
def endOfData (client : Bool) : rsEvent :=
  if client then .closeStream (some Io.EOF) else .endStream

/-- An idle reader over a stream whose data is all written and ended by `io.EOF`, against the
chunk model: the chunks are the rest of `last`, then the data of the pending messages, the last of
which is the `io.EOF`; once that was returned, no chunk is left.  The slot is full while anything
is pending. -/
structure ChunksOf (s : recvStream) (t : transportReader) : Prop where
  idle : s.reader.pc = .idle
  slot : s.buf.c = none → s.buf.backlog = []
  er : t.er = s.reader.err
  rest : (s.reader.err = none ∧ ∃ ds : List Bytes,
      pending s.buf.toUnbounded = ds.map (recvMsg.mk · none) ++ [⟨[], some Io.EOF⟩] ∧
      t.reader = s.reader.last.toList ++ ds) ∨
    (s.reader.err = some Io.EOF ∧ t.reader = [])

section Chunks

variable {s : recvStream} {k : ℕ}

/-- A read of the chunk `l` is `readBuffer` on it. -/
theorem readChunk_cons (l : Bytes) (cs : List Bytes) :
    Io.readChunk k (l :: cs) = .ok ((readBuffer l k).1, (readBuffer l k).2.toList ++ cs) := by
  simp only [Io.readChunk, readBuffer]
  split_ifs with hk
  · simp [List.take_of_length_le hk]
  · rfl

theorem step_Read_idle (hpc : s.reader.pc = .idle) : step s (.Read k) =
    ((s.reader.Read k).1.toList.map fun x => .read x.1 x.2, { s with reader := (s.reader.Read k).2 }) := by
  simp only [step, hpc]

theorem recv_idle (hpc : s.reader.pc = .idle) : s.recv = ([], s) := by
  simp only [recvStream.recv, hpc]

theorem step_recv_idle (hpc : s.reader.pc = .idle) : step s .recv = ([], s) :=
  recv_idle hpc

theorem recv_selecting {m : recvMsg} (hpc : s.reader.pc = .selecting k) (hc : s.buf.c = some m) :
    s.recv.1 = [.read (s.reader.readAdditional m k).1.1 (s.reader.readAdditional m k).1.2] ∧
      s.recv.2.buf = ({ s.buf with c := none } : recvBuffer).load ∧
      s.recv.2.reader = (s.reader.readAdditional m k).2 := by
  simp [recvStream.recv, hpc, hc]

theorem transportReader_Read_cons (l : Bytes) (cs : List Bytes) (er : Option String) :
    transportReader.Read ⟨l :: cs, er⟩ k =
      (.ok (readBuffer l k).1, ⟨(readBuffer l k).2.toList ++ cs, er⟩) := by
  rw [transportReader.Read, readChunk_cons]

theorem transportReader_Read_nil (er : Option String) :
    transportReader.Read ⟨[], er⟩ k = (.error Io.EOF, ⟨[], some Io.EOF⟩) := rfl

/-- After an error, a read call returns it and changes nothing. -/
theorem readCall_of_err {e : String} (hpc : s.reader.pc = .idle) (herr : s.reader.err = some e) :
    readCall s k = ([.read [] (some e)], s) := by
  have hstep : step s (.Read k) = ([.read [] (some e)], s) := by
    rw [step_Read_idle hpc, recvBufferReader.Read_of_err herr]
    rfl
  simp only [readCall, run_cons, run_nil, hstep, step_recv_idle hpc, List.append_nil]

/-- With data left in `last`, a read call returns from it. -/
theorem readCall_of_last {l : Bytes} (hpc : s.reader.pc = .idle) (herr : s.reader.err = none)
    (hlast : s.reader.last = some l) :
    readCall s k = ([.read (readBuffer l k).1 none],
      { s with reader := { s.reader with last := (readBuffer l k).2 } }) := by
  simp only [readCall, run_cons, run_nil, step_Read_idle hpc,
    recvBufferReader.Read_of_last herr hlast, Option.toList_some, List.map_cons, List.map_nil,
    step_recv_idle, hpc, List.append_nil]

/-- With nothing at hand, a read call waits in the `select` and receives the slot's message. -/
theorem readCall_of_slot {m : recvMsg} (hpc : s.reader.pc = .idle) (herr : s.reader.err = none)
    (hlast : s.reader.last = none) (hc : s.buf.c = some m) :
    (readCall s k).1 = [.read (s.reader.readAdditional m k).1.1 (s.reader.readAdditional m k).1.2] ∧
      (readCall s k).2.buf = ({ s.buf with c := none } : recvBuffer).load ∧
      (readCall s k).2.reader = (s.reader.readAdditional m k).2 := by
  have hstep : step s (.Read k) = ([], { s with reader := { s.reader with pc := .selecting k } }) := by
    rw [step_Read_idle hpc, recvBufferReader.Read_of_none herr hlast]
    rfl
  have hrecv := recv_selecting (s := { s with reader := { s.reader with pc := .selecting k } }) rfl hc
  simp only [readCall, run_cons, run_nil, hstep, List.nil_append, List.append_nil]
  exact hrecv

/-- **One read call does what the chunk model's `Read` does**, and keeps the relation. -/
theorem ChunksOf.step_readCall {t : transportReader} (h : ChunksOf s t) :
    (readCall s k).1 = [readOutput (t.Read k).1] ∧ ChunksOf (readCall s k).2 (t.Read k).2 := by
  obtain ⟨tr, ter⟩ := t
  obtain ⟨hidle, hslot, her, hrest⟩ := h
  change ter = s.reader.err at her
  subst her
  rcases hrest with ⟨herr, ds, hpend, hreader⟩ | ⟨herr, hreader⟩
  · change tr = _ at hreader
    subst hreader
    cases hlast : s.reader.last with
    | some l =>
      -- `Read` returns from `last`, as the chunk model reads its first chunk
      rw [readCall_of_last hidle herr hlast, Option.toList_some, List.singleton_append,
        transportReader_Read_cons]
      exact ⟨rfl, hidle, hslot, rfl, .inl ⟨herr, ds, hpend, rfl⟩⟩
    | none =>
      rw [Option.toList_none, List.nil_append]
      cases ds with
      | nil =>
        -- the reader receives the `io.EOF`, and the chunk model has no chunk left
        obtain ⟨hc, hrest⟩ := recvBuffer.slot_head hslot hpend
        obtain ⟨hout, hbuf, hrd⟩ := readCall_of_slot (k := k) hidle herr hlast hc
        rw [transportReader_Read_nil, hout]
        refine ⟨rfl, ?_, ?_, ?_, .inr ⟨?_, rfl⟩⟩
        · rw [hrd]
          rfl
        · rw [hbuf]
          exact recvBuffer.slot_load
        · rw [hrd]
          rfl
        · rw [hrd]
          rfl
      | cons d ds =>
        -- the reader receives the next DATA, which is the chunk model's first chunk
        obtain ⟨hc, hrest⟩ := recvBuffer.slot_head hslot hpend
        obtain ⟨hout, hbuf, hrd⟩ := readCall_of_slot (k := k) hidle herr hlast hc
        rw [transportReader_Read_cons, hout]
        refine ⟨rfl, ?_, ?_, ?_, .inl ⟨?_, ds, ?_, ?_⟩⟩
        · rw [hrd]
          rfl
        · rw [hbuf]
          exact recvBuffer.slot_load
        · rw [hrd, herr]
          rfl
        · rw [hrd]
          rfl
        · rw [hbuf, recvBuffer.load_toUnbounded, pending_Load, hrest]
          rfl
        · rw [hrd]
          rfl
  · -- `io.EOF` was returned: both return it again
    change tr = [] at hreader
    subst hreader
    rw [readCall_of_err hidle herr, transportReader_Read_nil]
    exact ⟨rfl, hidle, hslot, herr.symm, .inr ⟨herr, rfl⟩⟩

/-- **Every sequence of read calls does what the chunk model does.** -/
theorem ChunksOf.reads {t : transportReader} (h : ChunksOf s t) (ks : List ℕ) :
    (run readCall s ks).1 = (run chunkStep t ks).1.map readOutput ∧
      ChunksOf (run readCall s ks).2 (run chunkStep t ks).2 := by
  have hstep : ∀ s t k, ChunksOf s t → True →
      (readCall s k).1 = (chunkStep t k).1.flatMap (fun r => [readOutput r]) ∧
        ChunksOf (readCall s k).2 (chunkStep t k).2 :=
    fun _ _ k hr _ => hr.step_readCall (k := k)
  have hrel := run_related_flatMap _ hstep h (admits_of_forall (fun _ _ => trivial) s ks)
  rwa [← List.map_eq_flatMap] at hrel

/-- A stream to which the transport has written only DATA, before any read: the reader is idle
with nothing at hand, the stream is not done, no error is stored, the slot is full while anything
is pending, and the data `ds` is pending. -/
structure Receiving (s : recvStream) (ds : List Bytes) : Prop where
  idle : s.reader.pc = .idle
  last : s.reader.last = none
  rerr : s.reader.err = none
  done : s.done = false
  err : s.buf.err = none
  slot : s.buf.c = none → s.buf.backlog = []
  data : pending s.buf.toUnbounded = ds.map (recvMsg.mk · none)

theorem receiving_new (client : Bool) : Receiving (newRecvStream client) [] :=
  ⟨rfl, rfl, rfl, rfl, rfl, fun _ => rfl, rfl⟩

theorem Receiving.handleData {ds : List Bytes} (h : Receiving s ds) (d : Bytes) :
    Receiving (step s (.handleData d)).2 (ds ++ [d].filter fun d => d.length > 0) := by
  simp only [step]
  split_ifs with hd
  · -- the DATA is put behind what is pending
    rw [List.filter_singleton, decide_eq_true hd, cond_true]
    refine ⟨h.idle, h.last, h.rerr, h.done, ?_, recvBuffer.slot_put h.err h.slot, ?_⟩
    · show (s.buf.put _).err = none
      rw [recvBuffer.put_err, h.err]
      rfl
    · show pending (s.buf.put _).toUnbounded = _
      rw [recvBuffer.pending_put, if_pos h.err, h.data, List.map_append]
      rfl
  · -- an empty DATA frame writes nothing
    rw [List.filter_singleton, decide_eq_false hd, cond_false, List.append_nil]
    exact h

/-- The DATA frames `ds'` written in turn leave their nonempty payloads pending, in order. -/
theorem Receiving.run_handleData {ds : List Bytes} (h : Receiving s ds) (ds' : List Bytes) :
    Receiving (run step s (ds'.map .handleData)).2 (ds ++ ds'.filter fun d => d.length > 0) := by
  induction ds' generalizing s ds with
  | nil => simpa using h
  | cons d ds' ih =>
    have hrest := ih (h.handleData d)
    rw [List.append_assoc, ← List.filter_append, List.singleton_append] at hrest
    exact hrest

/-- `io.EOF` written behind the DATA `ds` (with the stream marked done or not) relates the stream to
the chunk model over `ds`. -/
theorem Receiving.write_eof {ds : List Bytes} (h : Receiving s ds) (b : Bool) :
    ChunksOf ({ s with done := b }.write ⟨[], some Io.EOF⟩).2 ⟨ds, none⟩ where
  idle := h.idle
  slot := recvBuffer.slot_put h.err h.slot
  er := h.rerr.symm
  rest := by
    refine .inl ⟨h.rerr, ds, ?_, ?_⟩
    · show pending (s.buf.put _).toUnbounded = _
      rw [recvBuffer.pending_put, if_pos h.err, h.data]
    · show ds = s.reader.last.toList ++ ds
      rw [h.last]
      rfl

/-- The end of the stream's data, on either side, relates it to the chunk model. -/
theorem Receiving.endOfData {ds : List Bytes} (h : Receiving s ds) :
    ∀ client, ChunksOf (step s (endOfData client)).2 ⟨ds, none⟩
  | false => h.write_eof s.done
  | true => by
    -- the client's `closeStream` marks the stream done and writes `io.EOF`
    show ChunksOf (s.closeStream (some Io.EOF)).2 _
    rw [recvStream.closeStream, if_neg (by rw [h.done]; exact Bool.false_ne_true)]
    exact h.write_eof true

/-- The read calls are the reader's steps, one after the other. -/
theorem run_readCall (s : recvStream) :
    ∀ ks : List ℕ, run readCall s ks = run step s (ks.flatMap fun k => [.Read k, .recv])
  | [] => rfl
  | k :: ks => by
    rw [run_cons, List.flatMap_cons, run_append, run_readCall _ ks]
    rfl

end Chunks

/-- **`recvBufferReader` refines the chunk model of `Stream.Read`.**  On the client or the server,
once the transport has written the DATA frames `ds` and ended the stream with `io.EOF`, every
sequence of reads of lengths `ks` returns what `transportReader.Read` returns over the chunks `ds`
without the empty ones: each frame's data, over as many reads as it takes, then `io.EOF` for
good. -/
theorem reads_refine_chunks (client : Bool) (ds : List Bytes) (ks : List ℕ) :
    (run step (run step (newRecvStream client) (ds.map .handleData ++ [endOfData client])).2
        (ks.flatMap fun k => [.Read k, .recv])).1 =
      (run chunkStep ⟨ds.filter fun d => d.length > 0, none⟩ ks).1.map readOutput := by
  have hdata := (receiving_new client).run_handleData ds
  rw [List.nil_append] at hdata
  have hend := hdata.endOfData client
  rw [run_append, run_cons, run_nil, ← run_readCall]
  exact (hend.reads ks).1

end RecvBuffer
end Transport
end GrpcGo
