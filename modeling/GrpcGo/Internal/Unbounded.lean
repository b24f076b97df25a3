import GrpcGo.Lib.Machine

/-!
# The unbounded buffer (`internal/buffer/unbounded.go`)

`Unbounded` passes updates from any number of producers to one reader without blocking them.  The
reader receives from `b.Get()`, a channel with one slot, and calls `b.Load()` after each value it
takes, which moves the oldest value of the backlog into the slot.  `Put` and `Load` hold `b.mu`
and send with a `select` that has a `default`, so neither blocks.  The receive is a step of the
channel alone.  A run of the buffer is therefore a list of `Put`, `Load` and receive events in any
interleaving.  A receive cannot happen while the slot is empty.

The abstract model says what the buffer is for: a FIFO queue of the values put and not yet taken
(`fifoStep`).  The buffer holds that queue as the slot followed by the backlog (`pending`).

* `Unbounded_refines_fifo`: every run of the buffer is a run of the FIFO queue.  Each receive
  takes the value the queue would hand out, and what is left is the queue.  The values received,
  followed by those pending, are the values put in the order they were put.  None is lost,
  duplicated or reordered, whatever the interleaving.  The slot stays in front of the backlog
  because `Put` sends to the slot only while the backlog is empty.
* `reader_never_waits_on_pending`: a reader that keeps its side of the contract (a `Load` after
  every value it takes) finds a value in the slot whenever it is ready to receive and a value is
  pending.  So it never waits on the channel while the buffer holds data.

The producers of gRPC (the xDS client's `TransportHelper`, the priority balancer and the others
that call `buffer.NewUnbounded`) rely on both.  The first is why `sendCh` can be read as a FIFO list
of requests.
-/

namespace GrpcGo
namespace Internal
namespace Buffer

open Machine

variable {α : Type}

/-- An `Unbounded`: the one slot of the channel `c`, and `backlog`. -/
structure Unbounded (α : Type) where
  c : Option α
  backlog : List α
  deriving DecidableEq, Repr

/-- `NewUnbounded()`. -/
def NewUnbounded : Unbounded α := ⟨none, []⟩

/-- `b.Put(t)`: into the slot when nothing is backlogged and the slot is free, else at the end of
the backlog. -/
def Unbounded.Put (b : Unbounded α) (t : α) : Unbounded α :=
  if b.backlog.length = 0 then
    -- the `select` sends only when the slot is free, and falls through otherwise
    match b.c with
    | none => { b with c := some t }
    | some _ => { b with backlog := b.backlog ++ [t] }
  else { b with backlog := b.backlog ++ [t] }

/-- `b.Load()`: the oldest backlogged value into the slot, when the slot is free. -/
def Unbounded.Load (b : Unbounded α) : Unbounded α :=
  match b.backlog with
  | x :: rest =>
    match b.c with
    | none => { c := some x, backlog := rest }
    | some _ => b
  | [] => b

/-- The events of a run: a producer's `Put`, a `Load`, and a receive from `b.Get()`. -/
inductive event (α : Type)
  | Put (t : α)
  | Load
  | recv
  deriving DecidableEq, Repr

/-- One event.  A receive yields the value in the slot and empties it. -/
def step (b : Unbounded α) : event α → List α × Unbounded α
  | .Put t => ([], b.Put t)
  | .Load => ([], b.Load)
  | .recv => (b.c.toList, { b with c := none })

/-- A receive waits while the slot is empty: it is not a step then. -/
def Allowed (b : Unbounded α) : event α → Prop
  | .recv => b.c.isSome
  | _ => True

instance (b : Unbounded α) (e : event α) : Decidable (Allowed b e) := by
  cases e <;> unfold Allowed <;> infer_instance

/-- The values put, in order. -/
def puts : List (event α) → List α
  | [] => []
  | .Put t :: es => t :: puts es
  | _ :: es => puts es

@[simp] theorem puts_append (es es' : List (event α)) :
    puts (es ++ es') = puts es ++ puts es' := by
  induction es with
  | nil => rfl
  | cons e es ih => cases e <;> simp [puts, ih]

/-! ## What the buffer is for: a FIFO queue -/

/-- The FIFO queue of the values put and not yet taken.  A receive takes the oldest; `Load` is not
an event of the queue. -/
def fifoStep (q : List α) : event α → List α × List α
  | .Put t => ([], q ++ [t])
  | .Load => ([], q)
  | .recv => (q.take 1, q.drop 1)

/-- What the queue hands out, followed by what it holds, is what it started with and the values
put since, in order. -/
theorem fifo_conserves : ∀ (q : List α) (es : List (event α)),
    (run fifoStep q es).1 ++ (run fifoStep q es).2 = q ++ puts es
  | q, [] => by simp [run, puts]
  | q, e :: es => by
    -- one event, then the rest of the run from the queue it leaves
    have ih := fifo_conserves (fifoStep q e).2 es
    rw [run_cons, List.append_assoc, ih]
    cases e with
    | Put t => simp [fifoStep, puts]
    | Load => simp [fifoStep, puts]
    | recv =>
      simp only [fifoStep, puts]
      rw [← List.append_assoc, List.take_append_drop]

/-! ## The buffer refines the queue -/

/-- The values the buffer holds, oldest first: the slot, then the backlog. -/
def pending (b : Unbounded α) : List α := b.c.toList ++ b.backlog

@[simp] theorem pending_NewUnbounded : pending (NewUnbounded : Unbounded α) = [] := rfl

/-- `Put` adds its value behind every pending one. -/
theorem pending_Put (b : Unbounded α) (t : α) : pending (b.Put t) = pending b ++ [t] := by
  unfold Unbounded.Put
  split_ifs with hb
  · -- with nothing backlogged, the value goes to the slot only when the slot is free
    rw [List.length_eq_zero_iff] at hb
    cases hc : b.c <;> simp [pending, hc, hb]
  · simp [pending]

/-- `Load` moves a value from the backlog to the slot, which is in front of it. -/
theorem pending_Load (b : Unbounded α) : pending b.Load = pending b := by
  unfold Unbounded.Load
  split
  · rename_i x rest hb
    cases hc : b.c <;> simp [pending, hc, hb]
  · rfl

/-- One allowed event of the buffer does what the queue of its pending values does. -/
theorem step_refines (b : Unbounded α) (e : event α) (he : Allowed b e) :
    (step b e).1 = (fifoStep (pending b) e).1 ∧
      pending (step b e).2 = (fifoStep (pending b) e).2 := by
  cases e with
  | Put t => exact ⟨rfl, pending_Put b t⟩
  | Load => exact ⟨rfl, pending_Load b⟩
  | recv =>
    -- a receive finds the slot full, and the slot holds the oldest pending value
    obtain ⟨x, hx⟩ := Option.isSome_iff_exists.mp he
    simp [step, fifoStep, pending, hx]

/-- **The buffer is a FIFO queue.**  Over every run, in any interleaving of `Put`, `Load` and
receives, the values received are those the FIFO queue of the values put would hand out, and the
buffer's pending values are that queue.  So the values received, followed by those pending, are
the values put, in order: none lost, duplicated or reordered. -/
theorem Unbounded_refines_fifo (es : List (event α)) (h : Admits Allowed step NewUnbounded es) :
    (run step NewUnbounded es).1 = (run fifoStep [] es).1 ∧
      pending (run step NewUnbounded es).2 = (run fifoStep [] es).2 ∧
      (run step NewUnbounded es).1 ++ pending (run step NewUnbounded es).2 = puts es := by
  -- the buffer needs no invariant: each allowed event refines on its own
  have hsim : Invariant Allowed step (fun _ : Unbounded α => True) := fun _ _ _ _ => trivial
  have hstep : ∀ (b : Unbounded α) (e : event α), True → Allowed b e →
      (step b e).1.map id = (fifoStep (pending b) e).1 ∧
        pending (step b e).2 = (fifoStep (pending b) e).2 := fun b e _ he => by
    rw [List.map_id]
    exact step_refines b e he
  obtain ⟨hout, hst⟩ := hsim.simulates hstep trivial h
  rw [List.map_id] at hout
  refine ⟨hout, hst, ?_⟩
  rw [hout, hst]
  simpa using fifo_conserves [] es

/-- Three updates put while a fourth sits unread, drained by receives and loads. -/
def drainRun : List (event ℕ) :=
  [.Put 1, .Put 2, .recv, .Put 3, .Load, .recv, .Load, .recv, .Put 4]

theorem Unbounded_refines_fifo_sample :
    Admits Allowed step NewUnbounded drainRun ∧
      (run step NewUnbounded drainRun).1 = (run fifoStep [] drainRun).1 ∧
      pending (run step NewUnbounded drainRun).2 = (run fifoStep [] drainRun).2 ∧
      (run step NewUnbounded drainRun).1 ++ pending (run step NewUnbounded drainRun).2 =
        puts drainRun :=
  ⟨by decide, Unbounded_refines_fifo _ (by decide)⟩

/-! ## The reader's contract -/

/-- The reader with the buffer: `loadDue` is set from a receive until the reader's `Load`. -/
structure withReader (α : Type) where
  buf : Unbounded α
  loadDue : Bool
  deriving DecidableEq, Repr

/-- One event with the reader: a receive is the reader's and makes its `Load` due, and the
reader's `Load` clears it.  The buffer steps as before. -/
def readerStep (s : withReader α) (e : event α) : List α × withReader α :=
  match e with
  | .Put _ => ((step s.buf e).1, ⟨(step s.buf e).2, s.loadDue⟩)
  | .Load => ((step s.buf e).1, ⟨(step s.buf e).2, false⟩)
  | .recv => ((step s.buf e).1, ⟨(step s.buf e).2, true⟩)

/-- The reader receives only when its last `Load` is done and the slot is full, and calls `Load`
only after a receive.  Producers put at any time. -/
def ReaderAllowed (s : withReader α) : event α → Prop
  | .Put _ => True
  | .Load => s.loadDue = true
  | .recv => s.loadDue = false ∧ s.buf.c.isSome

instance (s : withReader α) (e : event α) : Decidable (ReaderAllowed s e) := by
  cases e <;> unfold ReaderAllowed <;> infer_instance

/-- A reader that is not between a receive and its `Load` finds the slot full whenever a value is
pending. -/
def SlotFilled (s : withReader α) : Prop :=
  s.loadDue = false → s.buf.c = none → s.buf.backlog = []

/-- A slot still free after a `Put` was free, and the value went behind a nonempty backlog. -/
theorem Put_slot_free {b : Unbounded α} {t : α} (h : (b.Put t).c = none) :
    b.c = none ∧ b.backlog ≠ [] := by
  unfold Unbounded.Put at h
  split_ifs at h with hb
  · cases hc : b.c <;> simp [hc] at h
  · exact ⟨h, by simpa using hb⟩

/-- A slot still free after `Load` means that nothing was backlogged, and `Load` did nothing. -/
theorem Load_slot_free {b : Unbounded α} (h : b.Load.c = none) :
    b.backlog = [] ∧ b.Load = b := by
  unfold Unbounded.Load at h ⊢
  split at h
  · cases hc : b.c <;> simp [hc] at h
  · rename_i hb
    exact ⟨hb, by simp⟩

theorem slotFilled_step : Invariant ReaderAllowed readerStep (@SlotFilled α) := by
  intro s e hs he
  cases e with
  | Put t =>
    -- the slot stays free only when the backlog takes the value, which the invariant forbids
    intro hdue hc
    obtain ⟨hc₀, hb⟩ := Put_slot_free hc
    exact absurd (hs hdue hc₀) hb
  | Load =>
    -- the reader's `Load` fills a free slot from the backlog, whatever came before
    intro _ hc
    obtain ⟨hb, hload⟩ := Load_slot_free hc
    show s.buf.Load.backlog = []
    rw [hload]
    exact hb
  | recv =>
    -- a receive makes the reader's `Load` due
    intro hdue
    cases hdue

/-- **The reader never waits on the channel while the buffer holds data.**  In every run in
which the reader calls `Load` after each value it receives, whenever it is ready to receive
(its `Load` is done) and some value is pending, that value's slot is full: its receive goes
through, and by `Unbounded_refines_fifo` it takes the oldest pending value. -/
theorem reader_never_waits_on_pending (es : List (event α))
    (h : Admits ReaderAllowed readerStep ⟨NewUnbounded, false⟩ es)
    (hready : (run readerStep ⟨NewUnbounded, false⟩ es).2.loadDue = false)
    (hpending : pending (run readerStep ⟨NewUnbounded, false⟩ es).2.buf ≠ []) :
    ∃ x, (run readerStep ⟨NewUnbounded, false⟩ es).2.buf.c = some x ∧
      (pending (run readerStep ⟨NewUnbounded, false⟩ es).2.buf).head? = some x := by
  have hslot : SlotFilled (run readerStep ⟨NewUnbounded, false⟩ es).2 :=
    slotFilled_step.run (fun _ _ => rfl) h
  cases hc : (run readerStep ⟨NewUnbounded, false⟩ es).2.buf.c with
  | none =>
    -- an empty slot would leave nothing pending
    have hb := hslot hready hc
    simp [pending, hc, hb] at hpending
  | some x => exact ⟨x, rfl, by simp [pending, hc]⟩

/-- The reader takes one update and loads the next after two more are put. -/
def readerRun : List (event ℕ) := [.Put 1, .recv, .Put 2, .Put 3, .Load]

theorem reader_never_waits_on_pending_sample :
    Admits ReaderAllowed readerStep ⟨NewUnbounded, false⟩ readerRun ∧
      (run readerStep ⟨NewUnbounded, false⟩ readerRun).2.loadDue = false ∧
      pending (run readerStep ⟨NewUnbounded, false⟩ readerRun).2.buf ≠ [] ∧
      ∃ x, (run readerStep ⟨NewUnbounded, false⟩ readerRun).2.buf.c = some x ∧
        (pending (run readerStep ⟨NewUnbounded, false⟩ readerRun).2.buf).head? = some x :=
  ⟨by decide, by decide, by decide,
    reader_never_waits_on_pending _ (by decide) (by decide) (by decide)⟩

end Buffer
end Internal
end GrpcGo
