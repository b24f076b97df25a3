import GrpcGo.Lib.GoBinary
import GrpcGo.Lib.Machine

/-!
# A stream's write quota (`internal/transport/flowcontrol.go`)

`writeQuota` is a soft limit on the bytes a stream's writer may hand to loopy before loopy has
written them out.  The writer's `get(sz)` loops.  It loads `quota`, and when it is positive it
subtracts `sz` and returns.  Otherwise it waits in a `select` for a token on `ch`, then loops, or
for `done`, then fails.  Loopy calls `replenish(n)` once it has written `n` bytes of the stream,
which adds `n` back.  When that add takes the quota from at most zero to above zero, `replenish`
sends a token on `ch`, a channel of one slot, without blocking.

The loads and adds are atomic, and the send and the receive are steps of the channel, so each is
one event.  A run is any interleaving of three parties:
* the writer, one `get` at a time (a stream's `SendMsg` is not called concurrently);
* loopy, one goroutine, so one `replenish` at a time;
* the close of `done`.

`Allowed` is that discipline.  `Within q0 S` is what the rest of the transport keeps to: writes of
at most `S` bytes, and loopy giving back only bytes that were taken.

* `waiting_writer_woken`: whenever the writer waits with a positive quota, the token is in `ch`
  or loopy is about to send it.  Within the next two steps of the channel the writer is back at
  the top of its loop.  The writer is never left waiting while there is quota, for any amounts
  taken and given back.
* `quota_bounds`: under `Within q0 S`, the quota stays within `[1 - S, q0]`.  At most `q0 + S - 1`
  bytes are taken and not given back.  For `q0` and `S` at most `math.MaxInt32`, the `int32`
  arithmetic of the code never wraps, so the quota here is its exact value.
-/

namespace GrpcGo
namespace Transport
namespace WriteQuota

open GoStd Machine

/-- Where the writer is in `get(sz)`. -/
inductive getter
  /-- not in `get` -/
  | idle
  /-- at the top of the loop: its next step loads `quota` -/
  | load (sz : ℤ)
  /-- it loaded a positive quota: its next step subtracts `sz` -/
  | add (sz : ℤ)
  /-- in the `select`, waiting for a token on `ch` or for `done` -/
  | wait (sz : ℤ)
  deriving DecidableEq, Repr

/-- A `writeQuota` with where its two users are: `ch` holds a token or not, `done` is closed or
not, and `sending` is set while loopy's `replenish` is about to send the token. -/
structure writeQuota where
  quota : ℤ
  ch : Bool
  done : Bool
  writer : getter
  sending : Bool
  deriving DecidableEq, Repr

/-- `newWriteQuota(sz, done)`. -/
def newWriteQuota (sz : ℤ) : writeQuota := ⟨sz, false, false, .idle, false⟩

/-- What `get` returns. -/
inductive result
  | ok (sz : ℤ)
  | errStreamDone
  deriving DecidableEq, Repr

/-- The events of the writer, of loopy and of the stream's end. -/
inductive event
  /-- the writer calls `get(sz)` -/
  | get (sz : ℤ)
  /-- `atomic.LoadInt32(&w.quota) > 0` -/
  | load
  /-- `atomic.AddInt32(&w.quota, -sz)`, and `get` returns `nil` -/
  | add
  /-- the `select` of `get` takes the token, and the loop goes round -/
  | recvCh
  /-- the `select` of `get` sees `done`: `get` returns `errStreamDone` -/
  | recvDone
  /-- loopy's `replenish(n)`: its `atomic.AddInt32` and the test of the sums before and after -/
  | replenish (n : ℤ)
  /-- the `select` of `replenish` sends the token, or finds `ch` full -/
  | sendCh
  /-- `done` is closed -/
  | close
  deriving DecidableEq, Repr

/-- One event.  A step of the writer that is not where it is does nothing. -/
def step (w : writeQuota) : event → List result × writeQuota
  | .get sz => ([], { w with writer := .load sz })
  | .load =>
    match w.writer with
    | .load sz => ([], { w with writer := if w.quota > 0 then .add sz else .wait sz })
    | _ => ([], w)
  | .add =>
    match w.writer with
    | .add sz => ([.ok sz], { w with quota := w.quota - sz, writer := .idle })
    | _ => ([], w)
  | .recvCh =>
    match w.writer with
    | .wait sz => ([], { w with ch := false, writer := .load sz })
    | _ => ([], w)
  | .recvDone =>
    match w.writer with
    | .wait _ => ([.errStreamDone], { w with writer := .idle })
    | _ => ([], w)
  | .replenish n =>
    let a := w.quota + n
    let b := a - n
    ([], { w with quota := a, sending := decide (b ≤ 0 ∧ a > 0) })
  | .sendCh => ([], { w with ch := true, sending := false })
  | .close => ([], { w with done := true })

/-- Whether the writer is about to load the quota. -/
def getter.loading : getter → Bool
  | .load _ => true
  | _ => false

/-- Whether the writer is about to subtract. -/
def getter.adding : getter → Bool
  | .add _ => true
  | _ => false

/-- Whether the writer waits in the `select`. -/
def getter.waiting : getter → Bool
  | .wait _ => true
  | _ => false

/-- The discipline of the two users: one `get` at a time, a receive only from a ready channel,
one `replenish` at a time, and its send only after it. -/
def Allowed (w : writeQuota) : event → Prop
  | .get _ => w.writer = .idle
  | .load => w.writer.loading = true
  | .add => w.writer.adding = true
  | .recvCh => w.writer.waiting = true ∧ w.ch = true
  | .recvDone => w.writer.waiting = true ∧ w.done = true
  | .replenish _ => w.sending = false
  | .sendCh => w.sending = true
  | .close => True

instance (w : writeQuota) (e : event) : Decidable (Allowed w e) := by
  cases e <;> unfold Allowed <;> infer_instance

/-- What the transport keeps to: writes of at most `S` bytes, and loopy giving back only what was
taken from the quota `q0`. -/
def Within (q0 S : ℤ) (w : writeQuota) : event → Prop
  | .get sz => 0 < sz ∧ sz ≤ S
  | .replenish n => 0 ≤ n ∧ w.quota + n ≤ q0
  | _ => True

instance (q0 S : ℤ) (w : writeQuota) (e : event) : Decidable (Within q0 S w e) := by
  cases e <;> unfold Within <;> infer_instance

/-! ## No lost wake-up -/

/-- A writer waiting with a positive quota has its token in `ch` or on its way. -/
def Woken (w : writeQuota) : Prop :=
  w.writer.waiting = true → 0 < w.quota → w.ch = true ∨ w.sending = true

theorem woken_new (q0 : ℤ) : Woken (newWriteQuota q0) := nofun

theorem woken_step : Invariant Allowed step Woken := by
  intro w e hw he
  cases e with
  | get sz => intro hwait; simp [step, getter.waiting] at hwait
  | load =>
    -- the writer waits only after it loaded a quota of at most zero
    intro hwait hq
    cases hl : w.writer with
    | load sz =>
      simp only [step, hl] at hwait hq ⊢
      split_ifs at hwait with hpos
      · simp [getter.waiting] at hwait
      · exact absurd hq hpos
    | _ => simp [Allowed, hl, getter.loading] at he
  | add =>
    intro hwait
    cases ha : w.writer with
    | add sz => simp [step, ha, getter.waiting] at hwait
    | _ => simp [Allowed, ha, getter.adding] at he
  | recvCh =>
    intro hwait
    cases hwr : w.writer <;> simp [step, hwr, getter.waiting] at hwait
  | recvDone =>
    intro hwait
    cases hwr : w.writer <;> simp [step, hwr, getter.waiting] at hwait
  | replenish n =>
    -- from at most zero the add sets `sending`; from above zero the token was in `ch` already
    intro hwait hq
    simp only [step] at hwait hq ⊢
    by_cases hpos : 0 < w.quota
    · rcases hw hwait hpos with hch | hsend
      · exact .inl hch
      · rw [Allowed] at he
        rw [he] at hsend
        cases hsend
    · right
      simp only [add_sub_cancel_right, decide_eq_true_eq]
      exact ⟨by omega, hq⟩
  | sendCh => intro _ _; exact .inl rfl
  | close => exact hw

/-- **A waiting writer is not left waiting while there is quota.**  In every run of the writer,
loopy and the stream's end, with any amounts taken and given back, whenever the writer waits in
its `select` and the quota is positive, the token is in `ch` or loopy is about to send it.  The
steps already due (loopy's send, then the writer's receive) bring the writer back to the top of
its loop, where it loads the quota again. -/
theorem waiting_writer_woken (q0 : ℤ) (es : List event)
    (h : Admits Allowed step (newWriteQuota q0) es) {sz : ℤ}
    (hwait : (run step (newWriteQuota q0) es).2.writer = .wait sz)
    (hq : 0 < (run step (newWriteQuota q0) es).2.quota) :
    ∃ es', es' ⊆ [event.sendCh, event.recvCh] ∧
      Admits Allowed step (run step (newWriteQuota q0) es).2 es' ∧
      (run step (run step (newWriteQuota q0) es).2 es').2.writer = .load sz := by
  set w := (run step (newWriteQuota q0) es).2 with hw_def
  have hwoken : Woken w := woken_step.run (woken_new q0) h
  have hwaiting : w.writer.waiting = true := by rw [hwait]; rfl
  rcases hwoken hwaiting hq with hch | hsend
  · -- the token is there: the writer takes it
    refine ⟨[.recvCh], by simp, ⟨⟨hwaiting, hch⟩, trivial⟩, ?_⟩
    simp [step, hwait]
  · -- loopy sends the token, then the writer takes it
    refine ⟨[.sendCh, .recvCh], by simp,
      ⟨hsend, ⟨by simpa [step] using hwaiting, rfl⟩, trivial⟩, ?_⟩
    simp [step, hwait]

/-- A write that finds the quota at zero and waits, then loopy gives back seven bytes. -/
def wokenRun : List event := [.get 10, .load, .add, .get 4, .load, .replenish 7]

theorem waiting_writer_woken_sample :
    Admits Allowed step (newWriteQuota 10) wokenRun ∧
      (run step (newWriteQuota 10) wokenRun).2.writer = .wait 4 ∧
      0 < (run step (newWriteQuota 10) wokenRun).2.quota ∧
      ∃ es', es' ⊆ [event.sendCh, event.recvCh] ∧
        Admits Allowed step (run step (newWriteQuota 10) wokenRun).2 es' ∧
        (run step (run step (newWriteQuota 10) wokenRun).2 es').2.writer = .load 4 :=
  ⟨by decide, rfl, by decide, waiting_writer_woken 10 _ (by decide) rfl (by decide)⟩

/-! ## The soft limit, and no `int32` overflow -/

/-- The size of the `get` the writer is in, with the bound the transport keeps to. -/
def getter.Sized (S : ℤ) : getter → Prop
  | .idle => True
  | .load sz | .add sz | .wait sz => 0 < sz ∧ sz ≤ S

/-- The bounds of the quota: the writer subtracts only from a positive quota, and loopy adds back
no more than was taken. -/
structure Bounded (q0 S : ℤ) (w : writeQuota) : Prop where
  sized : w.writer.Sized S
  adding : ∀ sz, w.writer = .add sz → 0 < w.quota
  lower : 1 - S ≤ w.quota
  upper : w.quota ≤ q0

theorem bounded_new {q0 S : ℤ} (hS : 1 - S ≤ q0) : Bounded q0 S (newWriteQuota q0) :=
  ⟨trivial, (fun _ h => by cases h), hS, le_refl q0⟩

theorem bounded_step (q0 S : ℤ) :
    Invariant (fun w e => Allowed w e ∧ Within q0 S w e) step (Bounded q0 S) := by
  intro w e hb ⟨he, hin⟩
  have hlo := hb.lower
  have hhi := hb.upper
  cases e with
  | get sz => exact ⟨hin, (fun _ h => by cases h), hlo, hhi⟩
  | load =>
    -- the writer goes on to subtract only after it loaded a positive quota
    cases hl : w.writer with
    | load sz =>
      have hsized : 0 < sz ∧ sz ≤ S := by simpa [hl, getter.Sized] using hb.sized
      simp only [step, hl]
      split_ifs with hpos
      · exact ⟨hsized, (fun _ h => by cases h; exact hpos), hlo, hhi⟩
      · exact ⟨hsized, (fun _ h => by cases h), hlo, hhi⟩
    | _ => simp [Allowed, hl, getter.loading] at he
  | add =>
    -- `sz`, at most `S`, comes off a positive quota
    cases ha : w.writer with
    | add sz =>
      have hsized : 0 < sz ∧ sz ≤ S := by simpa [ha, getter.Sized] using hb.sized
      have hpos := hb.adding sz ha
      simp only [step, ha]
      exact ⟨trivial, (fun _ h => by cases h), by dsimp only; omega, by dsimp only; omega⟩
    | _ => simp [Allowed, ha, getter.adding] at he
  | recvCh =>
    cases hwr : w.writer with
    | wait sz =>
      have hsized : 0 < sz ∧ sz ≤ S := by simpa [hwr, getter.Sized] using hb.sized
      simp only [step, hwr]
      exact ⟨hsized, (fun _ h => by cases h), hlo, hhi⟩
    | _ => simp [Allowed, hwr, getter.waiting] at he
  | recvDone =>
    cases hwr : w.writer with
    | wait sz =>
      simp only [step, hwr]
      exact ⟨trivial, (fun _ h => by cases h), hlo, hhi⟩
    | _ => simp [Allowed, hwr, getter.waiting] at he
  | replenish n =>
    -- loopy gives back at most what was taken
    obtain ⟨hn, hle⟩ := hin
    simp only [step]
    refine ⟨hb.sized, fun sz h => ?_, by dsimp only; omega, hle⟩
    have := hb.adding sz h
    dsimp only
    omega
  | sendCh => exact ⟨hb.sized, hb.adding, hlo, hhi⟩
  | close => exact ⟨hb.sized, hb.adding, hlo, hhi⟩

/-- **The soft limit, and no `int32` overflow.**  In every run in which writes are at most `S`
bytes and loopy gives back only bytes that were taken from the initial quota `q0`, the quota
stays within `[1 - S, q0]`.  The bytes taken and not given back never exceed `q0 + S - 1`.  When
`q0` and `S` are at most `math.MaxInt32`, the quota and the sums `get` and `replenish` compute lie
within `int32`, so the code's `int32` arithmetic is exact. -/
theorem quota_bounds {q0 S : ℤ} (hS : 1 ≤ S) (hq0 : 0 ≤ q0) (es : List event)
    (h : Admits (fun w e => Allowed w e ∧ Within q0 S w e) step (newWriteQuota q0) es) :
    1 - S ≤ (run step (newWriteQuota q0) es).2.quota ∧
      (run step (newWriteQuota q0) es).2.quota ≤ q0 ∧
      (q0 ≤ MaxInt32 → S ≤ MaxInt32 →
        -2 ^ 31 ≤ (run step (newWriteQuota q0) es).2.quota ∧
          (run step (newWriteQuota q0) es).2.quota < 2 ^ 31) := by
  have hb : Bounded q0 S (run step (newWriteQuota q0) es).2 :=
    (bounded_step q0 S).run (bounded_new (by omega)) h
  refine ⟨hb.lower, hb.upper, fun hq0max hSmax => ?_⟩
  have hlo := hb.lower
  have hhi := hb.upper
  simp only [MaxInt32] at hq0max hSmax
  constructor <;> omega

/-- Two writes that take the quota below zero, the second of which waits until loopy gives back
six bytes and sends the token. -/
def boundsRun : List event :=
  [.get 8, .load, .add, .get 5, .load, .add, .get 4, .load, .replenish 6, .sendCh, .recvCh]

theorem quota_bounds_sample :
    (1 : ℤ) ≤ 8 ∧ (0 : ℤ) ≤ 10 ∧
      Admits (fun w e => Allowed w e ∧ Within 10 8 w e) step (newWriteQuota 10) boundsRun ∧
      1 - 8 ≤ (run step (newWriteQuota 10) boundsRun).2.quota ∧
      (run step (newWriteQuota 10) boundsRun).2.quota ≤ 10 ∧
      ((10 : ℤ) ≤ MaxInt32 → (8 : ℤ) ≤ MaxInt32 →
        -2 ^ 31 ≤ (run step (newWriteQuota 10) boundsRun).2.quota ∧
          (run step (newWriteQuota 10) boundsRun).2.quota < 2 ^ 31) :=
  ⟨by decide, by decide, by decide,
    @quota_bounds 10 8 (by decide) (by decide) _ (by decide)⟩

end WriteQuota
end Transport
end GrpcGo
